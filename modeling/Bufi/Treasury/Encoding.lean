import Bufi.Treasury.Quorum
import Mathlib.Algebra.BigOperators.Group.List.Basic
import Mathlib.Data.List.Sort

/-!
# The canonical encoding of owner signatures

`encode` is how the repository's own tools lay out a blob: the parts sorted by
owner, one slot each, a contract owner's slot pointing at its dynamic part, and
the dynamic parts behind the slots in the same order.

`encode_slots` reads the slots back.  It is proved for a blob that contains the
encoding of the remaining parts between what was written before, `A` and `B`,
so that the induction on the parts can move one slot to `A` and one dynamic
part to `B`.  `checkWeightedSigs_exact` puts this beside the exactness of the
check itself: every winning set of owners can be encoded so that it passes.
-/

namespace Bufi.Treasury

open Bufi.Evm Bufi.Gateway

/-- One owner's contribution to a blob. -/
structure Part where
  owner : Address
  isContract : Bool
  sig : Bytes
  deriving DecidableEq

/-- The slot of a part, with its dynamic part at `offset`. -/
def Part.slot (p : Part) (offset : ℕ) : Bytes :=
  if p.isContract then
    beBytes 32 (toBytes32 p.owner).toNat ++ (beBytes 32 offset ++ [0])
  else p.sig

/-- The dynamic part: a length word and the signature, for contract owners. -/
def Part.dyn (p : Part) : Bytes :=
  if p.isContract then beBytes 32 p.sig.length ++ p.sig else []

/-- The static parts and the dynamic parts, from `offset` on. -/
def encodeFrom : ℕ → List Part → Bytes × Bytes
  | _, [] => ([], [])
  | offset, p :: ps =>
    let rest := encodeFrom (offset + p.dyn.length) ps
    (p.slot offset ++ rest.1, p.dyn ++ rest.2)

def sortParts (parts : List Part) : List Part :=
  parts.insertionSort (fun p q => p.owner.toNat ≤ q.owner.toNat)

def encode (parts : List Part) : Bytes :=
  let blob := encodeFrom (parts.length * 65) (sortParts parts)
  blob.1 ++ blob.2

section

variable {W : Type} (O : SigOracle W) (treasury : Address) (S : Signers) (hash : W)

/-- The part is a valid signature of its owner over `hash`. -/
structure Part.Valid (p : Part) : Prop where
  eoa : p.isContract = false → p.sig.length = 65 ∧ slotV p.sig 0 ≠ 0
    ∧ (slotS p.sig 0).toNat ≤ secp256k1nDiv2
    ∧ O.tryRecover hash (slotV p.sig 0) (slotR p.sig 0) (slotS p.sig 0) = some p.owner
  contract : p.isContract = true → p.owner ≠ treasury
    ∧ isValidERC1271 O p.owner hash p.sig nestedSigGas = true

/-- A winning set of owners, each with a valid signature. -/
structure WinningParts (parts : List Part) : Prop where
  distinct : (parts.map Part.owner).Nodup
  weight_ne : ∀ p ∈ parts, S.weights p.owner ≠ 0
  valid : ∀ p ∈ parts, p.Valid O treasury hash
  winning : S.thresholdWeight.toNat ≤ S.weightOf (parts.map Part.owner)

variable {O treasury S hash}

theorem Part.Valid.slot_length {p : Part} (h : p.Valid O treasury hash) (offset : ℕ) :
    (p.slot offset).length = 65 := by
  cases hc : p.isContract with
  | true => simp [Part.slot, hc]
  | false => simp [Part.slot, hc, (h.eoa hc).1]

theorem encodeFrom_length {ps : List Part} (h : ∀ p ∈ ps, p.Valid O treasury hash) (offset : ℕ) :
    (encodeFrom offset ps).1.length = 65 * ps.length := by
  induction ps generalizing offset with
  | nil => rfl
  | cons p ps ih =>
    rw [encodeFrom, List.length_append, (h p (by simp)).slot_length,
      ih (fun q hq => h q (by simp [hq])), List.length_cons]
    omega

/-- Without contract owners there is no dynamic part. -/
theorem encodeFrom_dyn_nil {ps : List Part} (h : ∀ p ∈ ps, p.isContract = false) (offset : ℕ) :
    (encodeFrom offset ps).2 = [] := by
  induction ps generalizing offset with
  | nil => rfl
  | cons p ps ih =>
    have hp : p.dyn = [] := by simp [Part.dyn, h p (by simp)]
    rw [encodeFrom, hp, ih (fun q hq => h q (by simp [hq]))]
    rfl

theorem toNat_ofNat_of_lt {n : ℕ} (h : n < 2 ^ 256) : (BitVec.ofNat 256 n).toNat = n := by
  rw [BitVec.toNat_ofNat, Nat.mod_eq_of_lt h]

/-- A contract owner's slot, read where it was written. -/
theorem contract_slot {p : Part} (hp : p.Valid O treasury hash) (hc : p.isContract = true)
    {A T B D : Bytes} {i offset : ℕ} (hA : A.length = 65 * i)
    (hoff : (A ++ (p.slot offset ++ T) ++ B).length = offset)
    (hlen : (A ++ (p.slot offset ++ T) ++ B ++ (p.dyn ++ D)).length < 2 ^ 64) :
    SlotValid O treasury hash (A ++ (p.slot offset ++ T) ++ B ++ (p.dyn ++ D)) i p.owner
      ∧ slotV (A ++ (p.slot offset ++ T) ++ B ++ (p.dyn ++ D)) i = 0
      ∧ slotOffset (A ++ (p.slot offset ++ T) ++ B ++ (p.dyn ++ D)) i = offset := by
  have hslot : (p.slot offset).length = 65 := hp.slot_length offset
  have hdyn : p.dyn = beBytes 32 p.sig.length ++ p.sig := by simp [Part.dyn, hc]
  generalize hb : A ++ (p.slot offset ++ T) ++ B ++ (p.dyn ++ D) = b at hlen ⊢
  have hblen : b.length = offset + (32 + p.sig.length) + D.length := by
    rw [← hb, List.length_append, hoff, List.length_append, hdyn, List.length_append,
      beBytes_length]
    omega
  have hiA : i * 65 = A.length := by omega
  have hr : slotR b i = toBytes32 p.owner := by
    have := wordAt_append A (beBytes 32 offset ++ [0] ++ T ++ B ++ (p.dyn ++ D)) (toBytes32 p.owner)
    rw [slotR, hiA, ← this, ← hb]
    simp [Part.slot, hc]
  have hs : slotS b i = BitVec.ofNat 256 offset := by
    have := wordAt_append (A ++ beBytes 32 (toBytes32 p.owner).toNat)
      ([0] ++ T ++ B ++ (p.dyn ++ D)) (BitVec.ofNat 256 offset)
    rw [toNat_ofNat_of_lt (by omega), List.length_append, beBytes_length] at this
    rw [slotS, hiA, ← this, ← hb]
    simp [Part.slot, hc]
  have hv : slotV b i = 0 := by
    rw [slotV, hiA, ← hb]
    simp [Part.slot, hc, List.getElem?_append]
  have ho : slotOffset b i = offset := by
    rw [slotOffset, hs, toNat_ofNat_of_lt (by omega)]
  have hd : slotDynLen b i = p.sig.length := by
    have := wordAt_append (A ++ (p.slot offset ++ T) ++ B) (p.sig ++ D)
      (BitVec.ofNat 256 p.sig.length)
    rw [toNat_ofNat_of_lt (by omega), hoff] at this
    rw [slotDynLen, ho, ← toNat_ofNat_of_lt (show p.sig.length < 2 ^ 256 by omega), ← this, ← hb]
    simp [hdyn]
  have hbody : slotBody b i = p.sig := by
    have he : b = (A ++ (p.slot offset ++ T) ++ B ++ beBytes 32 p.sig.length) ++ (p.sig ++ D) := by
      rw [← hb, hdyn]
      simp
    have hl : (A ++ (p.slot offset ++ T) ++ B ++ beBytes 32 p.sig.length).length = offset + 32 := by
      rw [List.length_append, hoff, beBytes_length]
    rw [slotBody, ho, hd, he, ← hl, List.drop_left, List.take_left]
  refine ⟨.contract hv ?_ ?_ (hp.contract hc).1 ?_ ?_ ?_, hv, ho⟩
  · rw [hr, isCanonicalAddress_toBytes32]
  · rw [hr, toAddress_toBytes32]
  · rw [ho, ← hoff]
    simp only [List.length_append, hslot, hA]
    omega
  · rw [ho, hd, hblen]
    omega
  · rw [hbody]
    exact (hp.contract hc).2

/-- An EOA owner's slot, read where it was written. -/
theorem eoa_slot {p : Part} (hp : p.Valid O treasury hash) (hc : p.isContract = false)
    {A T : Bytes} {i offset : ℕ} (hA : A.length = 65 * i) :
    SlotValid O treasury hash (A ++ (p.slot offset ++ T)) i p.owner
      ∧ slotV (A ++ (p.slot offset ++ T)) i ≠ 0 := by
  obtain ⟨hlen, hv, hs, hr⟩ := hp.eoa hc
  have hslot : p.slot offset = p.sig := by simp [Part.slot, hc]
  have hiA : i * 65 = A.length := by omega
  have hr' : slotR (A ++ (p.slot offset ++ T)) i = slotR p.sig 0 := by
    rw [slotR, hiA, hslot, ← Nat.add_zero A.length, wordAt_append_left _ _ _ (by omega), slotR]
  have hs' : slotS (A ++ (p.slot offset ++ T)) i = slotS p.sig 0 := by
    rw [slotS, hiA, hslot, wordAt_append_left _ _ _ (by omega), slotS, Nat.zero_mul, Nat.zero_add]
  have hv' : slotV (A ++ (p.slot offset ++ T)) i = slotV p.sig 0 := by
    rw [slotV, hiA, hslot, slotV]
    simp [List.getElem?_append, hlen]
  rw [← hv'] at hv
  refine ⟨.eoa hv ?_ ?_, hv⟩
  · rw [hs']
    exact hs
  · rw [hs', hr', hv']
    exact hr

/-- From slot `i` on, `b` holds the parts `ps`: every slot is valid for its part,
no dynamic part starts before `offset`, and the first contract owner's starts
exactly there. -/
structure EncodedAt (O : SigOracle W) (treasury : Address) (hash : W) (b : Bytes) (i offset : ℕ)
    (ps : List Part) : Prop where
  slots : ∀ j p, ps[j]? = some p → SlotValid O treasury hash b (i + j) p.owner
  offsets : ∀ j p, ps[j]? = some p → slotV b (i + j) = 0 → offset ≤ slotOffset b (i + j)
  first : (∃ p ∈ ps, p.isContract = true) →
    ∃ j < ps.length, slotV b (i + j) = 0 ∧ slotOffset b (i + j) = offset

theorem encodedAt_nil (b : Bytes) (i offset : ℕ) : EncodedAt O treasury hash b i offset [] where
  slots := by simp
  offsets := by simp
  first := by simp

/-- One more part in front; its own dynamic part, if any, is the first. -/
theorem EncodedAt.cons {b : Bytes} {i offset : ℕ} {p : Part} {ps : List Part}
    (h : EncodedAt O treasury hash b (i + 1) (offset + p.dyn.length) ps)
    (hslot : SlotValid O treasury hash b i p.owner)
    (hcon : p.isContract = true → slotV b i = 0 ∧ slotOffset b i = offset)
    (heoa : p.isContract = false → slotV b i ≠ 0) :
    EncodedAt O treasury hash b i offset (p :: ps) where
  slots := by
    intro j q hj
    cases j with
    | zero =>
      obtain rfl := Option.some.inj hj
      exact hslot
    | succ j =>
      rw [List.getElem?_cons_succ] at hj
      rw [show i + (j + 1) = i + 1 + j by omega]
      exact h.slots j q hj
  offsets := by
    intro j q hj hv
    cases j with
    | zero =>
      cases hc : p.isContract with
      | true => exact le_of_eq (hcon hc).2.symm
      | false => exact absurd hv (heoa hc)
    | succ j =>
      rw [List.getElem?_cons_succ] at hj
      rw [show i + (j + 1) = i + 1 + j by omega] at hv ⊢
      exact le_trans (Nat.le_add_right _ _) (h.offsets j q hj hv)
  first := by
    rintro ⟨q, hq, hqc⟩
    cases hc : p.isContract with
    | true => exact ⟨0, by simp, hcon hc⟩
    | false =>
      rcases List.mem_cons.mp hq with rfl | hq
      · rw [hc] at hqc
        exact absurd hqc (by simp)
      · have hd : p.dyn = [] := by simp [Part.dyn, hc]
        obtain ⟨j, hj, hv, ho⟩ := h.first ⟨q, hq, hqc⟩
        rw [hd, List.length_nil, Nat.add_zero] at ho
        refine ⟨j + 1, by simp; omega, ?_⟩
        rw [show i + (j + 1) = i + 1 + j by omega]
        exact ⟨hv, ho⟩

/-- **The slots of an encoding, read back**, in a blob that holds `A` before
them, `B` between them and the dynamic parts, and `D` at the end. -/
theorem encode_slots {ps : List Part} (hps : ∀ p ∈ ps, p.Valid O treasury hash) :
    ∀ (A B D b : Bytes) (i offset : ℕ), A.length = 65 * i →
      (A ++ (encodeFrom offset ps).1 ++ B).length = offset →
      b = A ++ (encodeFrom offset ps).1 ++ B ++ ((encodeFrom offset ps).2 ++ D) →
      b.length < 2 ^ 64 → EncodedAt O treasury hash b i offset ps := by
  induction ps with
  | nil => intro A B D b i offset _ _ _ _; exact encodedAt_nil b i offset
  | cons p ps ih =>
    intro A B D b i offset hA hoff hb hlen
    have hp := hps p (by simp)
    simp only [encodeFrom] at hoff hb
    generalize hrest : encodeFrom (offset + p.dyn.length) ps = rest at hoff hb
    -- this slot goes to the front part and its dynamic part to the middle
    have hA' : (A ++ p.slot offset).length = 65 * (i + 1) := by
      rw [List.length_append, hA, hp.slot_length]
      omega
    have hoff' : ((A ++ p.slot offset) ++ rest.1 ++ (B ++ p.dyn)).length
        = offset + p.dyn.length := by
      have := hoff
      simp only [List.length_append] at this ⊢
      omega
    have htail : EncodedAt O treasury hash b (i + 1) (offset + p.dyn.length) ps := by
      refine ih (fun q hq => hps q (by simp [hq])) (A ++ p.slot offset) (B ++ p.dyn) D b _ _ hA'
        (by rw [hrest]; exact hoff') ?_ hlen
      rw [hrest, hb]
      simp
    cases hc : p.isContract with
    | true =>
      have hb' : b = A ++ (p.slot offset ++ rest.1) ++ B ++ (p.dyn ++ (rest.2 ++ D)) := by
        rw [hb]
        simp
      obtain ⟨hslot, hv, ho⟩ := contract_slot (D := rest.2 ++ D) hp hc hA hoff (hb' ▸ hlen)
      rw [← hb'] at hslot hv ho
      exact htail.cons hslot (fun _ => ⟨hv, ho⟩) (fun h => absurd h (by simp [hc]))
    | false =>
      have hb' : b = A ++ (p.slot offset ++ (rest.1 ++ B ++ (p.dyn ++ rest.2 ++ D))) := by
        rw [hb]
        simp
      obtain ⟨hslot, hv⟩ := eoa_slot (T := rest.1 ++ B ++ (p.dyn ++ rest.2 ++ D)) hp hc hA
      rw [← hb'] at hslot hv
      exact htail.cons hslot (fun h => absurd h (by simp [hc])) (fun _ => hv)

theorem staticEndOf_le_offset {b : Bytes} {i k : ℕ} (hik : i < k) (hv : slotV b i = 0) :
    staticEndOf b k ≤ slotOffset b i := by
  refine le_trans (staticEndOf_antitone b (show i + 1 ≤ k by omega)) ?_
  rw [staticEndOf_succ, contractOffset, if_pos hv, Option.getD_some]
  exact min_le_right _ _

theorem le_staticEndOf {b : Bytes} {m k : ℕ} (hm : m ≤ b.length)
    (h : ∀ i < k, slotV b i = 0 → m ≤ slotOffset b i) : m ≤ staticEndOf b k := by
  induction k with
  | zero => exact hm
  | succ k ih =>
    have hk := ih (fun i hi => h i (by omega))
    rw [staticEndOf_succ, contractOffset]
    split_ifs with hv
    · exact le_min hk (h k (by omega) hv)
    · rw [Option.getD_none, min_self]
      exact hk

/-! ### Exactness -/

theorem sortParts_perm (parts : List Part) : (sortParts parts).Perm parts :=
  List.perm_insertionSort _ _

theorem sortParts_ascending {parts : List Part} (h : (parts.map Part.owner).Nodup) :
    ((sortParts parts).map Part.owner).Pairwise (· < ·) := by
  have hs : (sortParts parts).Pairwise (fun p q => p.owner.toNat ≤ q.owner.toNat) :=
    List.pairwise_insertionSort _ _
  have hn : ((sortParts parts).map Part.owner).Nodup :=
    ((sortParts_perm parts).map Part.owner).nodup_iff.mpr h
  rw [List.Nodup, List.pairwise_map] at hn
  rw [List.pairwise_map]
  refine (hs.and hn).imp ?_
  rintro p q ⟨hle, hne⟩
  bv_omega

/-- **A winning set of owners is accepted in its canonical encoding.** -/
theorem encode_quorumBlob {parts : List Part} (hS : S.Valid treasury)
    (h : WinningParts O treasury S hash parts) (hlen : (encode parts).length < 2 ^ 64) :
    QuorumBlob O treasury S hash (encode parts) parts.length
      ((sortParts parts).map Part.owner) := by
  have hperm := sortParts_perm parts
  have hvalid : ∀ p ∈ sortParts parts, p.Valid O treasury hash :=
    fun p hp => h.valid p (hperm.mem_iff.mp hp)
  have hstat : (encodeFrom (parts.length * 65) (sortParts parts)).1.length = parts.length * 65 := by
    rw [encodeFrom_length hvalid, hperm.length_eq]
    omega
  have hat : EncodedAt O treasury hash (encode parts) 0 (parts.length * 65) (sortParts parts) :=
    encode_slots hvalid [] [] [] (encode parts) 0 (parts.length * 65) rfl (by simpa using hstat)
      (by simp [encode]) hlen
  have hge : parts.length * 65 ≤ (encode parts).length := by
    rw [encode, List.length_append, hstat]
    omega
  refine ⟨?_, ?_, sortParts_ascending h.distinct, ?_, ?_, ?_, ?_⟩
  · rcases parts with _ | ⟨p, ps⟩
    · have h1 := h.winning
      have h2 := hS.threshold_pos
      simp only [List.map_nil, Signers.weightOf, List.sum_nil] at h1
      omega
    · simp
  · rw [List.length_map, hperm.length_eq]
  · intro a ha
    obtain ⟨p, hp, rfl⟩ := List.mem_map.mp ha
    exact h.weight_ne p (hperm.mem_iff.mp hp)
  · intro i a hi
    rw [List.getElem?_map] at hi
    obtain ⟨p, hp, rfl⟩ := Option.map_eq_some_iff.mp hi
    simpa using hat.slots i p hp
  · apply le_antisymm
    · refine le_staticEndOf hge ?_
      intro i hi hv
      have hi' : i < (sortParts parts).length := by rw [hperm.length_eq]; exact hi
      have := hat.offsets i _ (List.getElem?_eq_getElem hi') (by simpa using hv)
      simpa using this
    · by_cases hc : ∃ p ∈ sortParts parts, p.isContract = true
      · obtain ⟨j, hj, hv, ho⟩ := hat.first hc
        rw [Nat.zero_add] at hv ho
        rw [hperm.length_eq] at hj
        rw [← ho]
        exact staticEndOf_le_offset hj hv
      · have hnone : ∀ p ∈ sortParts parts, p.isContract = false :=
          fun p hp => by simpa using fun hpc => hc ⟨p, hp, hpc⟩
        have hnil := encodeFrom_dyn_nil hnone (parts.length * 65)
        refine le_trans (staticEndOf_le_length _ _) ?_
        rw [encode, hnil, List.append_nil, hstat]
  · rw [Signers.weightOf, ((hperm.map Part.owner).map _).sum_eq]
    exact h.winning

/-- The signers of an accepted blob are different owners. -/
theorem QuorumBlob.owners {b : Bytes} {k : ℕ} {l : List Address} (hS : S.Valid treasury)
    (h : QuorumBlob O treasury S hash b k l) : l.Nodup ∧ ∀ a ∈ l, a ∈ S.owners := by
  refine ⟨h.ascending.imp (fun hlt he => ?_), fun a ha => (hS.weight_ne_iff a).mp (h.weight_ne a ha)⟩
  bv_omega

variable (O treasury S hash)

/-- **`_checkWeightedSigs` is sound and complete for its format.**  It never
reverts, it accepts exactly the blobs of the format, no owner counts twice, and
every winning set of owners is accepted in its canonical encoding. -/
theorem checkWeightedSigs_exact (hS : S.Valid treasury) :
    (∀ sigs, ∃ v, checkWeightedSigs O treasury S hash sigs = some v)
      ∧ (∀ sigs, checkWeightedSigs O treasury S hash sigs = some true
          ↔ ∃ k l, QuorumBlob O treasury S hash sigs.data k l)
      ∧ (∀ b k l, QuorumBlob O treasury S hash b k l → l.Nodup ∧ ∀ a ∈ l, a ∈ S.owners)
      ∧ (∀ parts, WinningParts O treasury S hash parts → ∀ sigs : MemBytes,
          sigs.data = encode parts → checkWeightedSigs O treasury S hash sigs = some true) := by
  refine ⟨checkWeightedSigs_total O treasury S hash,
    fun sigs => checkWeightedSigs_eq_true_iff hS.weight_zero,
    fun b k l h => h.owners hS, ?_⟩
  intro parts hp sigs hb
  have hlen := sigs.size_lt
  rw [hb] at hlen
  refine (checkWeightedSigs_eq_true_iff hS.weight_zero).mpr
    ⟨parts.length, (sortParts parts).map Part.owner, ?_⟩
  rw [hb]
  exact encode_quorumBlob hS hp hlen

end

/-- A treasury at `0x2` with the one owner `0x1`. -/
def soleOwner : Signers where
  owners := [1]
  weights := Function.update (fun _ => 0) 1 1
  thresholdWeight := 1

theorem soleOwner_valid : soleOwner.Valid 2 where
  length_pos := by decide
  length_le := by decide
  nodup := by decide
  zero_not_mem := by decide
  treasury_not_mem := by decide
  weight_pos_iff a := by
    by_cases ha : a = 1
    · subst ha
      decide
    · have hw : soleOwner.weights a = 0 := by
        change Function.update (fun _ : Address => (0 : Uint16)) 1 1 a = 0
        rw [Function.update_of_ne ha]
      rw [hw]
      exact ⟨fun h => absurd h (by decide), fun h => absurd (List.mem_singleton.mp h) ha⟩
  threshold_pos := by decide
  threshold_le := by decide

/-- Signature number `r` of `0x1`. -/
def soleOwnerSig (r : Uint256) : Bytes := beBytes 32 r.toNat ++ (beBytes 32 1 ++ [27])

/-- Signature number `r` is over the digest `sign r`; no account has code. -/
def soleOwnerOracle {W : Type} [DecidableEq W] (sign : Uint256 → Option W) : SigOracle W where
  tryRecover hash v r s := if v = 27 ∧ s = 1 ∧ sign r = some hash then some 1 else none
  codeLength _ := 0
  staticcall _ _ _ _ := none
  beyond _ := 0

def soleOwnerBlob (r : Uint256) : MemBytes := ⟨soleOwnerSig r, by simp [soleOwnerSig]⟩

theorem encode_soleOwner (r : Uint256) : encode [⟨1, false, soleOwnerSig r⟩] = soleOwnerSig r := by
  simp [encode, sortParts, encodeFrom, Part.slot, Part.dyn]

theorem slotV_soleOwnerSig (r : Uint256) : slotV (soleOwnerSig r) 0 = 27 := by
  simp [slotV, soleOwnerSig]

theorem slotR_soleOwnerSig (r : Uint256) : slotR (soleOwnerSig r) 0 = r := wordAt_append [] _ r

theorem slotS_soleOwnerSig (r : Uint256) : slotS (soleOwnerSig r) 0 = 1 := by
  have := wordAt_append (beBytes 32 r.toNat) [27] 1
  rwa [beBytes_length] at this

section

variable {W : Type} [DecidableEq W] {sign : Uint256 → Option W} {hash : W} {r : Uint256}

theorem soleOwner_winning (h : sign r = some hash) :
    WinningParts (soleOwnerOracle sign) 2 soleOwner hash [⟨1, false, soleOwnerSig r⟩] where
  distinct := List.nodup_singleton _
  weight_ne := by
    intro p hp
    rw [List.mem_singleton.mp hp]
    exact (soleOwner_valid.weight_ne_iff 1).mpr (List.mem_singleton_self 1)
  valid := by
    intro p hp
    rw [List.mem_singleton.mp hp]
    refine ⟨fun _ => ⟨by simp [soleOwnerSig], ?_, ?_, ?_⟩, fun h => absurd h (by simp)⟩
    · rw [slotV_soleOwnerSig]
      decide
    · rw [slotS_soleOwnerSig]
      decide
    · rw [slotV_soleOwnerSig, slotR_soleOwnerSig, slotS_soleOwnerSig]
      exact if_pos ⟨rfl, rfl, h⟩
  winning := soleOwner_valid.threshold_le

/-- The sole owner's signature is a quorum. -/
theorem soleOwner_quorum (h : sign r = some hash) :
    checkWeightedSigs (soleOwnerOracle sign) 2 soleOwner hash (soleOwnerBlob r) = some true := by
  have hlen : (soleOwnerSig r).length < 2 ^ 64 := (soleOwnerBlob r).size_lt
  rw [← encode_soleOwner] at hlen
  have hq := encode_quorumBlob soleOwner_valid (soleOwner_winning h) hlen
  rw [encode_soleOwner] at hq
  exact (checkWeightedSigs_eq_true_iff soleOwner_valid.weight_zero).mpr ⟨_, _, hq⟩

end

/-! ### A quorum with a contract -/

/-- A treasury at `0x2` of two persons and a contract, which has twice their weight. -/
def threeOwners : Signers where
  owners := [1, 3, 5]
  weights a := if a = 3 then 2 else if a = 1 ∨ a = 5 then 1 else 0
  thresholdWeight := 3

theorem threeOwners_valid : threeOwners.Valid 2 where
  length_pos := by decide
  length_le := by decide
  nodup := by decide
  zero_not_mem := by decide
  treasury_not_mem := by decide
  weight_pos_iff a := by
    show 0 < (if a = 3 then (2 : Uint16) else if a = 1 ∨ a = 5 then 1 else 0).toNat
      ↔ a ∈ ([1, 3, 5] : List Address)
    split_ifs with h3 h15
    · exact ⟨fun _ => by simp [h3], fun _ => by decide⟩
    · exact ⟨fun _ => by rcases h15 with h | h <;> simp [h], fun _ => by decide⟩
    · refine ⟨fun h => absurd h (by decide), fun h => ?_⟩
      simp only [List.mem_cons, List.not_mem_nil, or_false] at h
      tauto
  threshold_pos := by decide
  threshold_le := by decide

/-- The persons sign with their own addresses, and the contract answers the magic value. -/
def threeOwnersOracle : SigOracle Term where
  tryRecover hash v r s := if v = 27 ∧ s = 1 ∧ hash = .word 7 then some (r.setWidth 160) else none
  codeLength a := if a = 3 then 1 else 0
  staticcall _ signer hash sig :=
    if signer = 3 ∧ hash = .word 7 ∧ sig = [1, 2, 3] then
      some (beBytes 32 (erc1271MagicValue.toNat * 2 ^ 224))
    else none
  beyond _ := 0

/-- The contract and one person, in the order they signed in. -/
def threeOwnersParts : List Part := [⟨3, true, [1, 2, 3]⟩, ⟨1, false, soleOwnerSig 1⟩]

theorem threeOwners_winning :
    WinningParts threeOwnersOracle 2 threeOwners (.word 7) threeOwnersParts where
  distinct := by decide
  weight_ne := by
    intro p hp
    rcases List.mem_pair.mp hp with rfl | rfl
    · decide
    · decide
  valid := by
    intro p hp
    rcases List.mem_pair.mp hp with rfl | rfl
    · exact ⟨fun h => absurd h (by decide), fun _ => by decide +kernel⟩
    · exact ⟨fun _ => by decide +kernel, fun h => absurd h (by decide)⟩
  winning := by decide

/-- The slots are sorted by owner, and the one of the contract points behind them. -/
theorem checkWeightedSigs_exact_threeOwners :
    threeOwners.Valid 2
      ∧ checkWeightedSigs threeOwnersOracle 2 threeOwners (Term.word 7)
          ⟨encode threeOwnersParts, by decide +kernel⟩ = some true :=
  ⟨threeOwners_valid,
    (checkWeightedSigs_exact _ 2 threeOwners _ threeOwners_valid).2.2.2 _ threeOwners_winning _ rfl⟩

end Bufi.Treasury
