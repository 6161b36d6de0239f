import Bufi.Treasury.Encoding
import Bufi.Treasury.Queue

/-!
# Deployment and the owner set

The constructor, and the invariant it establishes: the owner list is short, has
no duplicates, neither zero nor the treasury itself, exactly the listed owners
have weight, the threshold can be reached, and `recipientCount` counts the
allowed recipients.

`setOwners` clears the weights of the old owners and then writes those of the
new ones.  That this leaves exactly the new weights needs the invariant itself:
no address outside the old list had any (`cleared_eq_zero`).
-/

namespace Bufi.Treasury

open Bufi.Evm Bufi.Gateway

/-! ### The constructor -/

structure SignerParams where
  owners : List Address
  weights : List Uint16
  thresholdWeight : Uint256
  gatewayWallet : Address

structure PolicyParams where
  allowedRecipients : List Bytes32
  allowedDestinationDomains : List Uint32
  tokenAddresses : List Address
  tokenNames : List Bytes
  tokenVersions : List Bytes
  allowedDestinationTokens : List Bytes32
  perIntentCap : Uint256
  maxFeeCap : Uint256
  adminTimelock : Uint32
  maxExpiryBlocks : Uint256
  localDomain : Uint32
  destinationMinters : List Bytes32
  allowedDestinationCallers : List Bytes32

/-- The loop of `_initOwners`: every entry is checked, pushed and given its
weight; the number is the running total. -/
def initOwnersLoop (treasury : Address) : List Address → List (Address × Uint16) →
    Signers × ℕ → Except Revert (Signers × ℕ)
  | _, [], acc => pure acc
  | seen, (owner, weight) :: rest, (S, total) => do
    checkOwner treasury seen owner weight
    initOwnersLoop treasury (seen ++ [owner]) rest
      ({ S with owners := S.owners ++ [owner], weights := Function.update S.weights owner weight },
        total + weight.toNat)

def initOwners (treasury : Address) (owners : List Address) (weights : List Uint16)
    (thresholdWeight : Uint256) : Except Revert Signers := do
  checkOwnerCount owners weights
  let (S, totalWeight) ← initOwnersLoop treasury [] (owners.zip weights) (⟨[], fun _ => 0, 0⟩, 0)
  require (1 ≤ thresholdWeight.toNat ∧ thresholdWeight.toNat ≤ totalWeight) .invalidThreshold
  pure { S with thresholdWeight := thresholdWeight }

/-- The constructor, of a treasury at address `treasury`. -/
def deploy {W : Type} (K : Keccak W) (treasury : Address) (chainid : Uint256) (p : SignerParams)
    (pol : PolicyParams) : Except Revert (Deployment × State W) := do
  require (p.gatewayWallet ≠ 0) .invalidGatewayWallet
  require (1 ≤ pol.allowedRecipients.length) .emptyRecipientAllowlist
  require (pol.perIntentCap ≠ 0 ∧ pol.maxExpiryBlocks ≠ 0) .invalidCap
  require (pol.tokenAddresses.length = pol.tokenNames.length
    ∧ pol.tokenAddresses.length = pol.tokenVersions.length) .invalidTokenConfig
  require (pol.destinationMinters.length = pol.allowedDestinationDomains.length)
    .invalidDestinationConfig
  let signers ← initOwners treasury p.owners p.weights p.thresholdWeight
  let (recipientCount, recipients) := pol.allowedRecipients.foldl insertCounted (0, fun _ => false)
  require (recipientCount ≠ 0) .emptyRecipientAllowlist
  require (0 ∉ pol.destinationMinters) .invalidDestinationConfig
  let tokens := pol.tokenAddresses.zip (pol.tokenNames.zip pol.tokenVersions)
  require (∀ t ∈ tokens, t.1 ≠ 0 ∧ t.2.1.length ≠ 0) .invalidTokenConfig
  pure (⟨treasury, p.gatewayWallet, pol.localDomain, chainid⟩, {
    signers with
    recipientCount
    allowedRecipients := recipients
    allowedDestinationDomains := insertAll (fun _ => false) pol.allowedDestinationDomains
    allowedTokens := setAll (fun _ => ⟨[], []⟩)
      (tokens.map (fun t => (t.1, ⟨t.2.1, t.2.2⟩)))
    allowedDestinationTokens := insertAll (fun _ => false) pol.allowedDestinationTokens
    allowedDestinationCallers := insertAll (fun _ => false) pol.allowedDestinationCallers
    destinationMinters := setAll (fun _ => 0)
      (pol.allowedDestinationDomains.zip pol.destinationMinters)
    paused := false
    revokedIntents := fun _ => false
    perIntentCap := pol.perIntentCap
    maxFeeCap := pol.maxFeeCap
    adminTimelock := pol.adminTimelock
    maxExpiryBlocks := pol.maxExpiryBlocks
    adminOps := fun _ => ⟨K.word 0, 0, false, false, 0⟩
    usedNonces := fun _ => false
    adminEpoch := 0 })

/-! ### Owner lists -/

/-- A list of owners and weights that passes the checks after `seen`. -/
structure OwnerList (treasury : Address) (seen : List Address) (l : List (Address × Uint16)) :
    Prop where
  zero_not_mem : 0 ∉ l.map Prod.fst
  treasury_not_mem : treasury ∉ l.map Prod.fst
  weight_pos : ∀ p ∈ l, 1 ≤ p.2
  nodup : (l.map Prod.fst).Nodup
  disjoint : ∀ a ∈ seen, a ∉ l.map Prod.fst

theorem ownerList_nil (treasury : Address) (seen : List Address) : OwnerList treasury seen [] where
  zero_not_mem := by simp
  treasury_not_mem := by simp
  weight_pos := by simp
  nodup := by simp
  disjoint := by simp

theorem OwnerList.cons {treasury : Address} {seen : List Address} {owner : Address}
    {weight : Uint16} {l : List (Address × Uint16)} {u : Unit}
    (hc : checkOwner treasury seen owner weight = .ok u)
    (h : OwnerList treasury (seen ++ [owner]) l) :
    OwnerList treasury seen ((owner, weight) :: l) := by
  simp only [checkOwner, bind_eq_ok, require_eq_ok, exists_const] at hc
  obtain ⟨⟨hz, ht⟩, hw, hs⟩ := hc
  have hnew : owner ∉ l.map Prod.fst := h.disjoint owner (by simp)
  refine ⟨?_, ?_, ?_, ?_, ?_⟩
  · rw [List.map_cons, List.mem_cons, not_or]
    exact ⟨Ne.symm hz, h.zero_not_mem⟩
  · rw [List.map_cons, List.mem_cons, not_or]
    exact ⟨Ne.symm ht, h.treasury_not_mem⟩
  · intro p hp
    rcases List.mem_cons.mp hp with rfl | hp
    · exact hw
    · exact h.weight_pos p hp
  · rw [List.map_cons, List.nodup_cons]
    exact ⟨hnew, h.nodup⟩
  · intro a ha
    rw [List.map_cons, List.mem_cons, not_or]
    refine ⟨fun he => hs ?_, h.disjoint a (by simp [ha])⟩
    change a = owner at he
    exact he ▸ ha

/-- The total of a list of weights. -/
def totalOf (l : List (Address × Uint16)) : ℕ := (l.map (fun p => p.2.toNat)).sum

theorem sumWeights_eq_ok {treasury : Address} {l : List (Address × Uint16)} :
    ∀ {seen : List Address} {total n : ℕ}, sumWeights treasury seen l total = .ok n →
      OwnerList treasury seen l ∧ n = total + totalOf l := by
  induction l with
  | nil =>
    intro seen total n h
    exact ⟨ownerList_nil treasury seen, by simpa [totalOf] using pure_eq_ok.mp h⟩
  | cons p l ih =>
    intro seen total n h
    simp only [sumWeights, bind_eq_ok] at h
    obtain ⟨u, hc, hrest⟩ := h
    obtain ⟨hl, rfl⟩ := ih hrest
    exact ⟨hl.cons hc, by simp [totalOf, Nat.add_assoc]⟩

theorem initOwnersLoop_eq_ok {treasury : Address} {l : List (Address × Uint16)} :
    ∀ {seen : List Address} {acc res : Signers × ℕ},
      initOwnersLoop treasury seen l acc = .ok res →
      OwnerList treasury seen l ∧ res.2 = acc.2 + totalOf l
        ∧ res.1.owners = acc.1.owners ++ l.map Prod.fst
        ∧ res.1.weights = setAll acc.1.weights l := by
  induction l with
  | nil =>
    intro seen acc res h
    obtain rfl := pure_eq_ok.mp h
    exact ⟨ownerList_nil treasury seen, by simp [totalOf], by simp, rfl⟩
  | cons p l ih =>
    intro seen acc res h
    simp only [initOwnersLoop, bind_eq_ok] at h
    obtain ⟨u, hc, hrest⟩ := h
    obtain ⟨hl, ht, ho, hw⟩ := ih hrest
    exact ⟨hl.cons hc, by simp [ht, totalOf, Nat.add_assoc], by simp [ho], by simp [hw, setAll]⟩

/-- The weights of an owner list, written over a map that holds no weight. -/
theorem valid_of_ownerList {treasury : Address} {S : Signers} {l : List (Address × Uint16)}
    {m : Address → Uint16} (hl : OwnerList treasury [] l) (ho : S.owners = l.map Prod.fst)
    (hw : S.weights = setAll m l) (hm : ∀ a, m a = 0) (hcount : 1 ≤ l.length ∧ l.length ≤ 20)
    (ht : 1 ≤ S.thresholdWeight.toNat ∧ S.thresholdWeight.toNat ≤ totalOf l) :
    S.Valid treasury := by
  have hweight : ∀ p ∈ l, S.weights p.1 = p.2 := by
    intro p hp
    rw [hw]
    exact setAll_of_mem hl.nodup hp m
  refine ⟨?_, ?_, ho ▸ hl.nodup, ho ▸ hl.zero_not_mem, ho ▸ hl.treasury_not_mem, ?_, ht.1,
    ?_⟩
  · rw [ho, List.length_map]
    exact hcount.1
  · rw [ho, List.length_map]
    exact hcount.2
  · intro a
    rw [ho]
    constructor
    · intro hpos
      by_contra hn
      rw [hw, setAll_of_notMem hn, hm a] at hpos
      exact absurd hpos (by decide)
    · intro ha
      obtain ⟨p, hp, rfl⟩ := List.mem_map.mp ha
      have := hl.weight_pos p hp
      rw [hweight p hp]
      bv_omega
  · have hsum : S.weightOf (l.map Prod.fst) = totalOf l := by
      rw [Signers.weightOf, totalOf, List.map_map]
      congr 1
      exact List.map_congr_left (fun p hp => by rw [Function.comp_apply, hweight p hp])
    rw [ho, hsum]
    exact ht.2

/-- Clearing the weights of the owners clears every weight. -/
theorem cleared_eq_zero {treasury : Address} {S : Signers} (h : S.Valid treasury) (a : Address) :
    setAll S.weights (S.owners.map (·, 0)) a = 0 := by
  have hfst : (S.owners.map (fun o => (o, (0 : Uint16)))).map Prod.fst = S.owners := by
    rw [List.map_map]
    exact List.map_id _
  by_cases ha : a ∈ S.owners
  · exact setAll_of_mem (hfst.symm ▸ h.nodup) (List.mem_map.mpr ⟨a, ha, rfl⟩) S.weights
  · rw [setAll_of_notMem (hfst.symm ▸ ha)]
    by_contra hne
    exact ha ((h.weight_ne_iff a).mp hne)

/-- **`setOwners` leaves a valid owner set**, however the old and the new list
overlap. -/
theorem setOwners_valid {W : Type} {d : Deployment} {s s' : State W} {owners : List Address}
    {weights : List Uint16} {threshold : Uint256} (hs : s.toSigners.Valid d.treasury)
    (h : setOwners d s owners weights threshold = .ok s') : s'.toSigners.Valid d.treasury := by
  simp only [setOwners, checkOwnerCount, bind_eq_ok, require_eq_ok, exists_const, pure_eq_ok] at h
  obtain ⟨⟨h1, h2, h3⟩, total, hsum, ht, epoch, -, rfl⟩ := h
  obtain ⟨hl, rfl⟩ := sumWeights_eq_ok hsum
  have hfst : (owners.zip weights).map Prod.fst = owners := List.map_fst_zip (le_of_eq h3)
  have hlen : (owners.zip weights).length = owners.length := by
    rw [List.length_zip, ← h3, min_self]
  refine valid_of_ownerList hl hfst.symm rfl (cleared_eq_zero hs) (by omega) ?_
  rw [Nat.zero_add] at ht
  exact ht

theorem initOwners_valid {treasury : Address} {owners : List Address} {weights : List Uint16}
    {threshold : Uint256} {S : Signers} (h : initOwners treasury owners weights threshold = .ok S) :
    S.Valid treasury := by
  simp only [initOwners, checkOwnerCount, bind_eq_ok, require_eq_ok, exists_const,
    pure_eq_ok] at h
  obtain ⟨⟨h1, h2, h3⟩, ⟨R, total⟩, hloop, ht, rfl⟩ := h
  obtain ⟨hl, rfl, ho, hw⟩ := initOwnersLoop_eq_ok hloop
  have hlen : (owners.zip weights).length = owners.length := by
    rw [List.length_zip, ← h3, min_self]
  refine valid_of_ownerList hl ho hw (fun _ => rfl) (by omega) ?_
  rw [Nat.zero_add] at ht
  exact ht

/-! ### The invariant -/

/-- The owner set is valid and the recipient counter is right. -/
structure Controlled {W : Type} (d : Deployment) (s : State W) : Prop where
  signers : s.toSigners.Valid d.treasury
  count : s.recipientCount = countTrue s.allowedRecipients
  count_pos : 1 ≤ s.recipientCount

section

variable {W : Type} {K : Keccak W} {d : Deployment}

theorem deploy_controlled {treasury : Address} {chainid : Uint256} {p : SignerParams}
    {pol : PolicyParams} {s : State W} (h : deploy K treasury chainid p pol = .ok (d, s)) :
    Controlled d s := by
  simp only [deploy, bind_eq_ok, require_eq_ok, exists_const, pure_eq_ok, Prod.mk.injEq] at h
  obtain ⟨-, -, -, -, -, S, hS, hcount, -, -, rfl, rfl⟩ := h
  exact ⟨initOwners_valid hS, foldl_insertCounted_count _ countTrue_empty.symm,
    Nat.one_le_iff_ne_zero.mpr hcount⟩

theorem deploy_treasury {treasury : Address} {chainid : Uint256} {p : SignerParams}
    {pol : PolicyParams} {s : State W} (h : deploy K treasury chainid p pol = .ok (d, s)) :
    d.treasury = treasury := by
  simp only [deploy, bind_eq_ok, require_eq_ok, exists_const, pure_eq_ok, Prod.mk.injEq] at h
  obtain ⟨-, -, -, -, -, S, -, -, -, -, rfl, -⟩ := h
  rfl

theorem setAllowedRecipient_controlled {s s' : State W} {recipient : Bytes32} {allowed : Bool}
    (hs : Controlled d s) (h : setAllowedRecipient s recipient allowed = .ok s') :
    Controlled d s' := by
  have hcount := hs.count
  rcases setAllowedRecipient_cases h with rfl | ⟨hr, rfl⟩ | ⟨hr, hlt, rfl⟩
  · exact hs
  · exact ⟨hs.signers, by rw [countTrue_insert hr, ← hcount], by simp⟩
  · have herase := countTrue_erase hr
    exact ⟨hs.signers, by simp only; omega, by simp only; omega⟩

theorem runAdmin_controlled {c : Callees} {s s' : State W} {admin : AdminCall}
    (hs : Controlled d s) (h : runAdmin d c s admin = .ok s') : Controlled d s' := by
  rcases runAdmin_cases h with ⟨o, w, t, -, h⟩ | ⟨secs, -, h⟩ | ⟨r, a, -, h⟩ | h
  · have hv := setOwners_valid hs.signers h
    simp only [setOwners, bind_eq_ok, require_eq_ok, exists_const, pure_eq_ok] at h
    obtain ⟨-, -, total, -, -, epoch, -, rfl⟩ := h
    exact ⟨hv, hs.count, hs.count_pos⟩
  · simp only [setAdminTimelock, bind_eq_ok, pure_eq_ok] at h
    obtain ⟨epoch, -, rfl⟩ := h
    exact ⟨hs.signers, hs.count, hs.count_pos⟩
  · exact setAllowedRecipient_controlled hs h
  · exact ⟨h.signers ▸ hs.signers, by rw [h.recipientCount, h.allowedRecipients, hs.count],
      h.recipientCount ▸ hs.count_pos⟩

variable [DecidableEq W]

theorem step_controlled {s s' : State W} {tx : Tx W d} (hs : Controlled d s)
    (h : step K d s tx = some s') : Controlled d s' := by
  cases effect_of_step h with
  | executed _ _ _ ran =>
    exact runAdmin_controlled (s := State.markExecuted s _) ⟨hs.signers, hs.count, hs.count_pos⟩ ran
  | queued | cancelled | revoked | paused | swept => exact ⟨hs.signers, hs.count, hs.count_pos⟩

/-- Every state of a run is under the control of its owners. -/
theorem controlled_of_run {treasury : Address} {chainid : Uint256} {p : SignerParams}
    {pol : PolicyParams} {s₀ s : State W} {h : List (Call (State W) (Tx W d))}
    (hd : deploy K treasury chainid p pol = .ok (d, s₀)) (hr : Run (step K d) s₀ h s) :
    Controlled d s :=
  hr.invariant (deploy_controlled hd) (fun _ _ _ hs hstep => step_controlled hs hstep)

end

/-! ### A deployment and a run -/

def soleParams : SignerParams := ⟨[1], [1], 1, 3⟩

def solePolicy : PolicyParams where
  allowedRecipients := [9, 9]
  allowedDestinationDomains := [6]
  tokenAddresses := [4]
  tokenNames := [ascii "USDC"]
  tokenVersions := [ascii "2"]
  allowedDestinationTokens := [8]
  perIntentCap := 100
  maxFeeCap := 10
  adminTimelock := 60
  maxExpiryBlocks := 1000
  localDomain := 7
  destinationMinters := [5]
  allowedDestinationCallers := []

def soleDeployment : Deployment := ⟨2, 3, 7, 1⟩

/-- `setAdminTimelock(120)`. -/
def timelockCall : Bytes := [0xe8, 0x02, 0x65, 0x0f] ++ beBytes 32 120

/-- Nobody answers. -/
def noCallees : Callees where
  balanceOf _ := none
  approve _ _ _ := none
  transfer _ _ _ := none
  deposit _ _ := none
  initiateWithdrawal _ _ := none
  withdraw _ := none

section

variable {W : Type} [DecidableEq W] (K : Keccak W) (m : Uint256) (D : W)

/-- The state after the constructor, with the sole owner `0x1`. -/
def soleState {W : Type} (K : Keccak W) : State W where
  toSigners := soleOwner
  recipientCount := 1
  allowedRecipients := Function.update (fun _ => false) 9 true
  allowedDestinationDomains := insertAll (fun _ => false) [6]
  allowedTokens := setAll (fun _ => ⟨[], []⟩) [(4, ⟨ascii "USDC", ascii "2"⟩)]
  allowedDestinationTokens := insertAll (fun _ => false) [8]
  allowedDestinationCallers := fun _ => false
  destinationMinters := setAll (fun _ => 0) [(6, 5)]
  paused := false
  revokedIntents := fun _ => false
  perIntentCap := 100
  maxFeeCap := 10
  adminTimelock := 60
  maxExpiryBlocks := 1000
  adminOps := fun _ => ⟨K.word 0, 0, false, false, 0⟩
  usedNonces := fun _ => false
  adminEpoch := 0

omit [DecidableEq W] in
theorem soleDeploy : deploy K 2 1 soleParams solePolicy = .ok (soleDeployment, soleState K) := rfl

/-- Signature `1` of the sole owner is over the queueing of `timelockCall` under
nonce `m`, signature `2` over `D`. -/
def soleSigns (r : Uint256) : Option W :=
  if r = 1 then some (queueDigest K soleDeployment timelockCall m 200 0)
  else if r = 2 then some D
  else none

/-- A transaction of `0x9` with no answers but the sole owner's signatures. -/
def soleTx (timestamp : Uint256) (action : Action W) : Tx W soleDeployment where
  sender := 9
  sender_ne := by decide
  timestamp := timestamp
  sigs := soleOwnerOracle (soleSigns K m D)
  callees := noCallees
  action := action

def queueTx : Tx W soleDeployment :=
  soleTx K m D 100 (.queueAdmin timelockCall m 200 (soleOwnerBlob 1))

def executeTx : Tx W soleDeployment := soleTx K m D 170 (.executeAdmin timelockCall m)

def queuedState {W : Type} (K : Keccak W) (m : Uint256) : State W :=
  { soleState K with
    usedNonces := Function.update (soleState K).usedNonces m true
    adminOps := Function.update (soleState K).adminOps m
      ⟨K.hash timelockCall, BitVec.ofNat 256 (100 + 60), false, false, 0⟩ }

def executedState {W : Type} (K : Keccak W) (m : Uint256) : State W :=
  { (queuedState K m).markExecuted m with adminTimelock := 120, adminEpoch := 1 }

theorem queueTx_step :
    step K soleDeployment (soleState K) (queueTx K m D) = some (queuedState K m) :=
  toOption_eq_some.mpr (queueAdmin_eq_ok.mpr
    ⟨rfl, show (100 : Uint256) ≤ 200 by decide, soleOwner_quorum rfl,
      show 100 + 60 < 2 ^ 256 by decide, rfl⟩)

omit [DecidableEq W] in
theorem queuedState_op : (queuedState K m).adminOps m
    = ⟨K.hash timelockCall, BitVec.ofNat 256 (100 + 60), false, false, 0⟩ := by
  simp [queuedState]

theorem executeTx_executable :
    Executable K (executeTx K m D).timestamp (queuedState K m) timelockCall m where
  found := by
    rw [queuedState_op]
    exact K.hash_ne_zero _
  not_executed := by rw [queuedState_op]
  not_cancelled := by rw [queuedState_op]
  current := by
    rw [queuedState_op]
    rfl
  matured := by
    rw [queuedState_op]
    exact show 160 ≤ 170 by decide
  last_lt := by
    rw [queuedState_op]
    exact show 160 + adminOpGrace < 2 ^ 256 by decide
  alive := by
    rw [queuedState_op]
    exact show 170 ≤ 160 + adminOpGrace by decide
  call_eq := by rw [queuedState_op]
  length_ge := by decide
  selector := by decide +kernel

theorem executeTx_step :
    step K soleDeployment (queuedState K m) (executeTx K m D) = some (executedState K m) := by
  have hrun : runAdmin soleDeployment noCallees ((queuedState K m).markExecuted m)
      (.setAdminTimelock 120) = .ok (executedState K m) := by
    simp only [runAdmin, setAdminTimelock, bind_eq_ok, pure_eq_ok]
    exact ⟨1, rfl, rfl⟩
  have hexec : executeAdmin K soleDeployment noCallees (executeTx K m D).timestamp (queuedState K m)
      timelockCall m = .ok (executedState K m) :=
    executeAdmin_eq_ok.mpr ⟨executeTx_executable K m D, _, by decide +kernel, hrun⟩
  exact toOption_eq_some.mpr hexec

/-- The timelock is changed, through the queue. -/
theorem soleRun : Run (step K soleDeployment) (soleState K)
    [⟨soleState K, queueTx K m D, queuedState K m⟩,
      ⟨queuedState K m, executeTx K m D, executedState K m⟩] (executedState K m) :=
  (Run.nil.snoc (queueTx_step K m D)).snoc (executeTx_step K m D)

end

/-! ### Whole runs -/

section

variable {W : Type} [DecidableEq W] {K : Keccak W} {d : Deployment}

/-- **Owner set and allowlist over whole runs.**  From any deployment, after any
transactions. -/
theorem ownerSet_invariant {treasury : Address} {chainid : Uint256} {p : SignerParams}
    {pol : PolicyParams} {s₀ s : State W} {h : List (Call (State W) (Tx W d))}
    (hd : deploy K treasury chainid p pol = .ok (d, s₀)) (hr : Run (step K d) s₀ h s) :
    s.toSigners.Valid treasury ∧ s.recipientCount = countTrue s.allowedRecipients
      ∧ 1 ≤ s.recipientCount := by
  have hs := controlled_of_run hd hr
  have ht := deploy_treasury hd
  exact ⟨ht ▸ hs.signers, hs.count, hs.count_pos⟩

end

/-! ### A new recipient and new owners -/

/-- `setAllowedRecipient(11, true)`. -/
def recipientCall : Bytes := [0x21, 0x0b, 0xd8, 0x92] ++ beBytes 32 11 ++ beBytes 32 1

/-- `setOwners([1, 5], [2, 1], 3)`. -/
def ownersCall : Bytes :=
  [0xd9, 0x66, 0xa6, 0x28] ++ ([96, 192, 3, 2, 1, 5, 2, 2, 1].map (beBytes 32)).flatten

/-- The sole owner queues a call at 100. -/
def queueCallTx (call : Bytes) (nonce : Uint256) : Tx Term soleDeployment :=
  soleTx Keccak.symbolic 1 (queueDigest Keccak.symbolic soleDeployment call nonce 200 0) 100
    (.queueAdmin call nonce 200 (soleOwnerBlob 2))

/-- Anybody executes it at 170. -/
def executeCallTx (call : Bytes) (nonce : Uint256) : Tx Term soleDeployment :=
  soleTx Keccak.symbolic 1 (.word 0) 170 (.executeAdmin call nonce)

section

variable {s s' : State Term}

def callQueued (s : State Term) (call : Bytes) (nonce : Uint256) : State Term :=
  { s with
    usedNonces := Function.update s.usedNonces nonce true
    adminOps := Function.update s.adminOps nonce
      ⟨Keccak.symbolic.hash call, BitVec.ofNat 256 (100 + s.adminTimelock.toNat), false, false,
        s.adminEpoch⟩ }

theorem queueCallTx_step (call : Bytes) (nonce : Uint256) (hs : s.toSigners = soleOwner)
    (hu : s.usedNonces nonce = false) (he : s.adminEpoch = 0) (hl : s.adminTimelock = 60) :
    step Keccak.symbolic soleDeployment s (queueCallTx call nonce)
      = some (callQueued s call nonce) := by
  have hq : HasQuorum soleDeployment (queueCallTx call nonce).sigs s
      (queueDigest Keccak.symbolic soleDeployment call nonce 200 s.adminEpoch)
      (soleOwnerBlob 2) := by
    rw [HasQuorum, hs, he]
    exact soleOwner_quorum rfl
  refine toOption_eq_some.mpr (queueAdmin_eq_ok.mpr
    ⟨hu, show (100 : Uint256) ≤ 200 by decide, hq, ?_, rfl⟩)
  rw [hl]
  exact show 100 + 60 < 2 ^ 256 by decide

theorem executeCallTx_step {call : Bytes} {nonce : Uint256} (admin : AdminCall)
    (hx : Executable Keccak.symbolic 170 s call nonce)
    (hdecoded : decodeAdminCall call = some admin)
    (hrun : runAdmin soleDeployment noCallees (s.markExecuted nonce) admin = .ok s') :
    step Keccak.symbolic soleDeployment s (executeCallTx call nonce) = some s' :=
  toOption_eq_some.mpr (executeAdmin_eq_ok.mpr ⟨hx, admin, hdecoded, hrun⟩)

end

def bothQueued : State Term :=
  callQueued (callQueued (soleState Keccak.symbolic) recipientCall 3) ownersCall 4

def recipientAdded : State Term :=
  { bothQueued.markExecuted 3 with
    recipientCount := 2
    allowedRecipients := Function.update bothQueued.allowedRecipients 11 true }

def ownersChanged : State Term :=
  { recipientAdded.markExecuted 4 with
    owners := [1, 5]
    weights := setAll (setAll recipientAdded.weights [(1, 0)]) [(1, 2), (5, 1)]
    thresholdWeight := 3
    adminEpoch := 1 }

theorem executable_recipientCall : Executable Keccak.symbolic 170 bothQueued recipientCall 3 := by
  constructor <;> decide +kernel

theorem executable_ownersCall : Executable Keccak.symbolic 170 recipientAdded ownersCall 4 := by
  constructor <;> decide +kernel

def ownersHistory : List (Call (State Term) (Tx Term soleDeployment)) :=
  [⟨soleState Keccak.symbolic, queueCallTx recipientCall 3,
      callQueued (soleState Keccak.symbolic) recipientCall 3⟩,
    ⟨callQueued (soleState Keccak.symbolic) recipientCall 3, queueCallTx ownersCall 4, bothQueued⟩,
    ⟨bothQueued, executeCallTx recipientCall 3, recipientAdded⟩,
    ⟨recipientAdded, executeCallTx ownersCall 4, ownersChanged⟩]

/-- A recipient is added, and the treasury gets a second owner. -/
theorem run_ownersHistory : Run (step Keccak.symbolic soleDeployment) (soleState Keccak.symbolic)
    ownersHistory ownersChanged := by
  have hqueued : step Keccak.symbolic soleDeployment (soleState Keccak.symbolic)
      (queueCallTx recipientCall 3)
      = some (callQueued (soleState Keccak.symbolic) recipientCall 3) :=
    queueCallTx_step recipientCall 3 rfl rfl rfl rfl
  have hboth : step Keccak.symbolic soleDeployment
      (callQueued (soleState Keccak.symbolic) recipientCall 3) (queueCallTx ownersCall 4)
      = some bothQueued :=
    queueCallTx_step ownersCall 4 rfl (by decide +kernel) rfl rfl
  have hadded : step Keccak.symbolic soleDeployment bothQueued (executeCallTx recipientCall 3)
      = some recipientAdded :=
    executeCallTx_step (.setAllowedRecipient 11 true) executable_recipientCall
      (by decide +kernel) rfl
  have hchanged : step Keccak.symbolic soleDeployment recipientAdded (executeCallTx ownersCall 4)
      = some ownersChanged :=
    executeCallTx_step (.setOwners [1, 5] [2, 1] 3) executable_ownersCall (by decide +kernel) rfl
  exact (((Run.nil.snoc hqueued).snoc hboth).snoc hadded).snoc hchanged

theorem ownerSet_invariant_ownersHistory :
    ownersChanged.toSigners.Valid 2
      ∧ ownersChanged.recipientCount = countTrue ownersChanged.allowedRecipients
      ∧ 1 ≤ ownersChanged.recipientCount :=
  ownerSet_invariant (soleDeploy _) run_ownersHistory

end Bufi.Treasury
