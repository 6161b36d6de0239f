import Bufi.Gateway.Policy

/-!
# The weighted signature check

`GatewayTreasury._checkWeightedSigs` walks a Safe-style blob: slots of 65
bytes, each an EOA signature or a pointer to a contract owner's signature
further back.  The loop stops at `staticEnd`, which begins at the end of the
blob and moves down to every offset it meets, so the number of slots is known
only once all of them have been read.

`checkWeightedSigs` is the code, with its checked arithmetic and its loads from
a memory that does not end where the blob does.  `slotSigner` says what one slot
is worth on its own, and `sigStep_eq` that a turn of the loop is: ask the slot,
refuse what does not ascend or has no weight, and otherwise count it.
-/

namespace Bufi.Treasury

open Bufi.Evm Bufi.Gateway

/-- The owner set: the listed owners, every address's weight, the threshold. -/
structure Signers where
  owners : List Address
  weights : Address → Uint16
  thresholdWeight : Uint256

def nestedSigGas : ℕ := 1000000

def secp256k1nDiv2 : ℕ := 0x7FFFFFFFFFFFFFFFFFFFFFFFFFFFFFFF5D576E7357A4501DDFE92F46681B20A0

/-- The variables of the loop. -/
structure SigLoop where
  i : ℕ
  staticEnd : ℕ
  prevSigner : Address
  totalWeight : ℕ
  deriving DecidableEq

/-- What the body of a loop does: return from the function, or go on. -/
inductive Flow (σ : Type)
  | ret (b : Bool)
  | next (s : σ)
  deriving DecidableEq

section Code

variable {W : Type} (O : SigOracle W) (treasury : Address) (S : Signers) (hash : W) (sigs : MemBytes)

/-- The end of a turn: `totalWeight += weights[signer]; prevSigner = signer; ++i`. -/
def countSigner (st : SigLoop) (staticEnd : ℕ) (signer : Address) : Option (Flow SigLoop) := do
  let total ← checkedAdd st.totalWeight (S.weights signer).toNat
  pure (.next ⟨(st.i + 1) % 2 ^ 256, staticEnd, signer, total⟩)

/-- A turn at a contract owner's slot (`v = 0`); `none` is a panic. -/
def contractTurn (st : SigLoop) (r s : Bytes32) : Option (Flow SigLoop) :=
  let len := sigs.data.length
  let mem := inMemory sigs.data O.beyond
  let signer := toAddress r
  let offset := s.toNat
  if !isCanonicalAddress r then pure (.ret false)
  else if signer = treasury then pure (.ret false)
  else do
    let slotEnd ← checkedMul (← checkedAdd st.i 1) 65
    let lastWord ← checkedSub len 32
    if offset < slotEnd ∨ offset > lastWord then pure (.ret false)
    else do
      let dynLen := (mload mem offset).toNat
      let room ← checkedSub (← checkedSub len offset) 32
      if dynLen > room then pure (.ret false)
      else
        let staticEnd := if offset < st.staticEnd then offset else st.staticEnd
        if signer ≤ st.prevSigner then pure (.ret false)
        else if S.weights signer = 0 then pure (.ret false)
        else do
          let start ← checkedAdd offset 32
          let nestedSig := sliceCopy mem start dynLen
          if !isValidERC1271 O signer hash nestedSig nestedSigGas then pure (.ret false)
          else countSigner S st staticEnd signer

/-- A turn at an EOA owner's slot. -/
def eoaTurn (st : SigLoop) (v : UInt8) (r s : Bytes32) : Option (Flow SigLoop) :=
  if s.toNat > secp256k1nDiv2 then pure (.ret false)
  else match O.tryRecover hash v r s with
    | none => pure (.ret false)
    | some signer =>
      if signer ≤ st.prevSigner then pure (.ret false)
      else if S.weights signer = 0 then pure (.ret false)
      else countSigner S st st.staticEnd signer

/-- One turn of the loop: read the slot, then by the kind of its owner. -/
def sigStep (st : SigLoop) : Option (Flow SigLoop) :=
  let mem := inMemory sigs.data O.beyond
  let r := mload mem (st.i * 65)
  let s := mload mem (st.i * 65 + 32)
  let v := byteOf (mload mem (st.i * 65 + 64)) 0
  if v = 0 then contractTurn O treasury S hash sigs st r s else eoaTurn O S hash st v r s

/-- The loop, on fuel; running out of it would be `none`. -/
def sigLoop : ℕ → SigLoop → Option (Flow SigLoop)
  | 0, _ => none
  | fuel + 1, st => do
    let slotEnd ← checkedMul (← checkedAdd st.i 1) 65
    if slotEnd ≤ st.staticEnd then
      match ← sigStep O treasury S hash sigs st with
      | .ret b => pure (.ret b)
      | .next st' => sigLoop fuel st'
    else pure (.next st)

/-- `_checkWeightedSigs`; every turn but the last consumes a slot, so
`length / 65 + 1` turns are enough. -/
def checkWeightedSigs : Option Bool :=
  let len := sigs.data.length
  if len = 0 then pure false
  else do
    match ← sigLoop O treasury S hash sigs (len / 65 + 1) ⟨0, len, 0, 0⟩ with
    | .ret b => pure b
    | .next st => do
      if st.i = 0 then pure false
      else if (← checkedMul st.i 65) ≠ st.staticEnd then pure false
      else pure (decide (S.thresholdWeight.toNat ≤ st.totalWeight))

end Code

/-! ### Slots -/

section Slots

variable {W : Type} (O : SigOracle W) (treasury : Address) (hash : W) (b : Bytes)

def slotR (i : ℕ) : Bytes32 := wordAt b (i * 65)

def slotS (i : ℕ) : Bytes32 := wordAt b (i * 65 + 32)

def slotV (i : ℕ) : UInt8 := b.getD (i * 65 + 64) 0

/-- The offset of a contract owner's dynamic part. -/
def slotOffset (i : ℕ) : ℕ := (slotS b i).toNat

/-- The length word of a contract owner's dynamic part. -/
def slotDynLen (i : ℕ) : ℕ := (wordAt b (slotOffset b i)).toNat

/-- The dynamic part itself. -/
def slotBody (i : ℕ) : Bytes := (b.drop (slotOffset b i + 32)).take (slotDynLen b i)

/-- Slot `i` is a valid signature of `a`. -/
inductive SlotValid (i : ℕ) (a : Address) : Prop
  | eoa (hv : slotV b i ≠ 0) (hs : (slotS b i).toNat ≤ secp256k1nDiv2)
      (hr : O.tryRecover hash (slotV b i) (slotR b i) (slotS b i) = some a)
  | contract (hv : slotV b i = 0) (hc : isCanonicalAddress (slotR b i) = true)
      (ha : a = toAddress (slotR b i)) (hne : a ≠ treasury)
      (hlo : 65 * (i + 1) ≤ slotOffset b i)
      (hhi : slotOffset b i + 32 + slotDynLen b i ≤ b.length)
      (hok : isValidERC1271 O a hash (slotBody b i) nestedSigGas = true)

/-- The signer of slot `i`, when it holds a valid signature. -/
def slotSigner (i : ℕ) : Option Address :=
  if slotV b i = 0 then
    let a := toAddress (slotR b i)
    if isCanonicalAddress (slotR b i) ∧ a ≠ treasury ∧ 65 * (i + 1) ≤ slotOffset b i
        ∧ slotOffset b i + 32 + slotDynLen b i ≤ b.length
        ∧ isValidERC1271 O a hash (slotBody b i) nestedSigGas = true then some a
    else none
  else if (slotS b i).toNat ≤ secp256k1nDiv2 then
    O.tryRecover hash (slotV b i) (slotR b i) (slotS b i)
  else none

theorem slotSigner_eq_some_iff {i : ℕ} {a : Address} :
    slotSigner O treasury hash b i = some a ↔ SlotValid O treasury hash b i a := by
  constructor
  · intro h
    by_cases hv : slotV b i = 0
    · rw [slotSigner, if_pos hv] at h
      obtain ⟨⟨h1, h2, h3, h4, h5⟩, ha⟩ := Option.ite_none_right_eq_some.mp h
      obtain rfl := Option.some.inj ha
      exact .contract hv h1 rfl h2 h3 h4 h5
    · rw [slotSigner, if_neg hv] at h
      obtain ⟨hs, hr⟩ := Option.ite_none_right_eq_some.mp h
      exact .eoa hv hs hr
  · rintro (⟨hv, hs, hr⟩ | ⟨hv, hc, rfl, hne, hlo, hhi, hok⟩)
    · rw [slotSigner, if_neg hv, if_pos hs, hr]
    · rw [slotSigner, if_pos hv]
      exact if_pos ⟨hc, hne, hlo, hhi, hok⟩

theorem slotSigner_none {i : ℕ} (hv : slotV b i = 0)
    (h : ¬ (isCanonicalAddress (slotR b i) = true ∧ toAddress (slotR b i) ≠ treasury
      ∧ 65 * (i + 1) ≤ slotOffset b i ∧ slotOffset b i + 32 + slotDynLen b i ≤ b.length
      ∧ isValidERC1271 O (toAddress (slotR b i)) hash (slotBody b i) nestedSigGas = true)) :
    slotSigner O treasury hash b i = none := by
  rw [slotSigner, if_pos hv]
  exact if_neg h

/-- The offset slot `i` adds to the end of the static part. -/
def contractOffset (i : ℕ) : Option ℕ := if slotV b i = 0 then some (slotOffset b i) else none

/-- The end of the static part once `k` slots have been read. -/
def staticEndOf (k : ℕ) : ℕ := ((List.range k).filterMap (contractOffset b)).foldl min b.length

theorem staticEndOf_succ (k : ℕ) :
    staticEndOf b (k + 1) = min (staticEndOf b k) ((contractOffset b k).getD (staticEndOf b k)) := by
  rw [staticEndOf, List.range_succ, List.filterMap_append, List.foldl_append]
  cases h : contractOffset b k with
  | none => simp [h, staticEndOf]
  | some o => simp [h, staticEndOf]

theorem staticEndOf_succ_le (k : ℕ) : staticEndOf b (k + 1) ≤ staticEndOf b k := by
  rw [staticEndOf_succ]
  exact min_le_left _ _

theorem staticEndOf_antitone {j k : ℕ} (h : j ≤ k) : staticEndOf b k ≤ staticEndOf b j := by
  induction h with
  | refl => exact le_rfl
  | step _ ih => exact le_trans (staticEndOf_succ_le b _) ih

theorem staticEndOf_le_length (k : ℕ) : staticEndOf b k ≤ b.length :=
  staticEndOf_antitone b (Nat.zero_le k)

end Slots

/-! ### A turn of the loop -/

section Turn

variable {W : Type} (O : SigOracle W) (treasury : Address) (S : Signers) (hash : W) (sigs : MemBytes)

/-- The loop variables after a slot of `a` has been counted. -/
def SigLoop.count (st : SigLoop) (a : Address) : SigLoop :=
  ⟨st.i + 1, min st.staticEnd ((contractOffset sigs.data st.i).getD st.staticEnd), a,
    st.totalWeight + (S.weights a).toNat⟩

/-- Where the arithmetic of a turn stays in range: the slot lies in the blob
and the weights so far are those of `i` owners. -/
structure SigLoop.InRange (st : SigLoop) : Prop where
  fits : 65 * (st.i + 1) ≤ sigs.data.length
  small : st.totalWeight ≤ 65535 * st.i

/-- What a turn does with the signer its slot yields. -/
def turnResult (st : SigLoop) (a? : Option Address) : Flow SigLoop :=
  match a? with
  | none => .ret false
  | some a =>
    if a ≤ st.prevSigner ∨ S.weights a = 0 then .ret false else .next (st.count S sigs a)

variable {sigs} {st : SigLoop}

theorem countSigner_eq (hst : st.InRange sigs) (e : ℕ) (a : Address) :
    countSigner S st e a
      = some (.next ⟨st.i + 1, e, a, st.totalWeight + (S.weights a).toNat⟩) := by
  have hlen := sigs.size_lt
  have hfit := hst.fits
  have hsmall := hst.small
  have hw := (S.weights a).isLt
  rw [countSigner, checkedAdd_of_lt (by omega), Nat.mod_eq_of_lt (by omega)]
  rfl

theorem byteOf_slotV (hst : st.InRange sigs) :
    byteOf (mload (inMemory sigs.data O.beyond) (st.i * 65 + 64)) 0 = slotV sigs.data st.i := by
  have hfit := hst.fits
  rw [byteOf_mload _ _ (by omega), Nat.add_zero, inMemory_of_lt _ (by omega), slotV,
    ← List.getElem_eq_getD]

theorem eoaTurn_eq (hst : st.InRange sigs) (hv : slotV sigs.data st.i ≠ 0) :
    eoaTurn O S hash st (slotV sigs.data st.i) (slotR sigs.data st.i) (slotS sigs.data st.i)
      = some (turnResult S sigs st (slotSigner O treasury hash sigs.data st.i)) := by
  rw [eoaTurn, slotSigner, if_neg hv]
  by_cases hlow : (slotS sigs.data st.i).toNat ≤ secp256k1nDiv2
  · rw [if_neg (by omega), if_pos hlow]
    cases O.tryRecover hash (slotV sigs.data st.i) (slotR sigs.data st.i) (slotS sigs.data st.i) with
    | none => rfl
    | some a =>
      simp only [turnResult]
      by_cases hp : a ≤ st.prevSigner
      · rw [if_pos hp, if_pos (Or.inl hp)]
        rfl
      · by_cases hw : S.weights a = 0
        · rw [if_neg hp, if_pos hw, if_pos (Or.inr hw)]
          rfl
        · rw [if_neg hp, if_neg hw, if_neg (not_or.mpr ⟨hp, hw⟩), countSigner_eq S hst,
            SigLoop.count, contractOffset, if_neg hv, Option.getD_none, min_self]
  · rw [if_pos (by omega), if_neg hlow]
    rfl

theorem contractTurn_eq (hst : st.InRange sigs) (hv : slotV sigs.data st.i = 0) :
    contractTurn O treasury S hash sigs st (slotR sigs.data st.i) (slotS sigs.data st.i)
      = some (turnResult S sigs st (slotSigner O treasury hash sigs.data st.i)) := by
  have hlen := sigs.size_lt
  have hfit := hst.fits
  rw [contractTurn]
  by_cases hc : isCanonicalAddress (slotR sigs.data st.i) = true
  swap
  · rw [slotSigner_none O treasury hash sigs.data hv (fun h => hc h.1), if_pos (by simp [hc])]
    rfl
  by_cases hself : toAddress (slotR sigs.data st.i) = treasury
  · rw [slotSigner_none O treasury hash sigs.data hv (fun h => h.2.1 hself), if_neg (by simp [hc]),
      if_pos hself]
    rfl
  rw [if_neg (by simp [hc]), if_neg hself, checkedAdd_of_lt (by omega), checkedSub_of_le (by omega)]
  simp only [Option.bind_eq_bind, Option.bind_some]
  rw [checkedMul_of_lt (by omega), Option.bind_some]
  change (if slotOffset sigs.data st.i < (st.i + 1) * 65
    ∨ slotOffset sigs.data st.i > sigs.data.length - 32 then _ else _) = _
  by_cases hrange : slotOffset sigs.data st.i < (st.i + 1) * 65
      ∨ slotOffset sigs.data st.i > sigs.data.length - 32
  · rw [slotSigner_none O treasury hash sigs.data hv (by rintro ⟨-, -, hlo, hhi, -⟩; omega),
      if_pos hrange]
    rfl
  have hdyn : (mload (inMemory sigs.data O.beyond) (slotS sigs.data st.i).toNat).toNat
      = slotDynLen sigs.data st.i := by
    rw [slotDynLen, ← mload_inMemory O.beyond (by omega), slotOffset]
  rw [if_neg hrange, hdyn]
  change (checkedSub sigs.data.length (slotOffset sigs.data st.i)).bind _ = _
  rw [checkedSub_of_le (by omega), Option.bind_some, checkedSub_of_le (by omega), Option.bind_some]
  by_cases hroom : slotDynLen sigs.data st.i > sigs.data.length - slotOffset sigs.data st.i - 32
  · rw [slotSigner_none O treasury hash sigs.data hv (by rintro ⟨-, -, -, hhi, -⟩; omega),
      if_pos hroom]
    rfl
  have hslice : sliceCopy (inMemory sigs.data O.beyond) (slotOffset sigs.data st.i + 32)
      (slotDynLen sigs.data st.i) = slotBody sigs.data st.i := sliceCopy_eq _ (by omega)
  have hend : (if (slotS sigs.data st.i).toNat < st.staticEnd then (slotS sigs.data st.i).toNat
      else st.staticEnd) = min st.staticEnd (slotOffset sigs.data st.i) := by
    rw [slotOffset]
    split_ifs <;> omega
  rw [if_neg hroom, hend, countSigner_eq S hst]
  change (if _ then _ else if _ then _
    else (checkedAdd (slotOffset sigs.data st.i) 32).bind _) = _
  rw [checkedAdd_of_lt (by omega), Option.bind_some, hslice]
  by_cases hok : isValidERC1271 O (toAddress (slotR sigs.data st.i)) hash
      (slotBody sigs.data st.i) nestedSigGas = true
  · rw [(slotSigner_eq_some_iff O treasury hash sigs.data).mpr
      (.contract hv hc rfl hself (by omega) (by omega) hok), hok]
    simp only [turnResult]
    by_cases hp : toAddress (slotR sigs.data st.i) ≤ st.prevSigner
    · rw [if_pos hp, if_pos (Or.inl hp)]
      rfl
    · by_cases hw : S.weights (toAddress (slotR sigs.data st.i)) = 0
      · rw [if_neg hp, if_pos hw, if_pos (Or.inr hw)]
        rfl
      · rw [if_neg hp, if_neg hw, if_neg (not_or.mpr ⟨hp, hw⟩), SigLoop.count, contractOffset,
          if_pos hv, Option.getD_some]
        rfl
  · rw [slotSigner_none O treasury hash sigs.data hv (fun h => hok h.2.2.2.2)]
    simp [hok, turnResult]

/-- **A turn asks the slot.**  It refuses a slot that holds no valid signature,
a signer that does not ascend and a signer without weight, and counts every
other one. -/
theorem sigStep_eq (hst : st.InRange sigs) :
    sigStep O treasury S hash sigs st
      = some (turnResult S sigs st (slotSigner O treasury hash sigs.data st.i)) := by
  have hfit := hst.fits
  have hr : mload (inMemory sigs.data O.beyond) (st.i * 65) = slotR sigs.data st.i :=
    mload_inMemory _ (by omega)
  have hs : mload (inMemory sigs.data O.beyond) (st.i * 65 + 32) = slotS sigs.data st.i :=
    mload_inMemory _ (by omega)
  simp only [sigStep, byteOf_slotV O hst, hr, hs]
  by_cases hv : slotV sigs.data st.i = 0
  · rw [if_pos hv, contractTurn_eq O treasury S hash hst hv]
  · rw [if_neg hv, eoaTurn_eq O treasury S hash hst hv]

end Turn

end Bufi.Treasury
