import Bufi.Evm.Abi
import Bufi.Evm.Hash

/-!
# The Gateway intent policy

`GatewayIntentPolicy.sol`: the typed structs of Circle Gateway, the EIP-712
digests of a `BurnIntent` and of an ERC-3009 `ReceiveWithAuthorization`, and
the scalar half of the intent policy.  `GatewayTreasury` and
`GatewayIntentGuardCore` both build on it.

The digests are one to one: `burnIntentDigest_inj` and
`receiveWithAuthorizationDigest_inj` recover every field, and
`burnIntentDigest_ne_receive` says that a digest of one kind is never one of
the other, because the two domain separators hash a different number of words.
-/

namespace Bufi.Gateway

open Bufi.Evm

/-! ### Typed structs -/

structure TransferSpec where
  version : Uint32
  sourceDomain : Uint32
  destinationDomain : Uint32
  sourceContract : Bytes32
  destinationContract : Bytes32
  sourceToken : Bytes32
  destinationToken : Bytes32
  sourceDepositor : Bytes32
  destinationRecipient : Bytes32
  sourceSigner : Bytes32
  destinationCaller : Bytes32
  value : Uint256
  salt : Bytes32
  hookData : Bytes
  deriving DecidableEq

structure BurnIntent where
  maxBlockHeight : Uint256
  maxFee : Uint256
  spec : TransferSpec
  deriving DecidableEq

/-- The arguments of a `ReceiveWithAuthorization`. -/
structure ReceiveAuth where
  fromAddr : Address
  toAddr : Address
  value : Uint256
  validAfter : Uint256
  validBefore : Uint256
  nonce : Bytes32
  deriving DecidableEq

/-- The scalar limits one burn intent is checked against. -/
structure IntentLimits where
  gatewayWallet : Address
  sourceDomain : Uint32
  depositor : Address
  maxExpiryBlocks : Uint256
  perIntentCap : Uint256
  maxFeeCap : Uint256
  deriving DecidableEq

/-! ### Decoding -/

def decodeTransferSpec (d : Bytes) (p : ℕ) : Option TransferSpec := do
  let version ← Abi.uint 32 d p
  let sourceDomain ← Abi.uint 32 d (p + 32)
  let destinationDomain ← Abi.uint 32 d (p + 64)
  let sourceContract ← Abi.word d (p + 96)
  let destinationContract ← Abi.word d (p + 128)
  let sourceToken ← Abi.word d (p + 160)
  let destinationToken ← Abi.word d (p + 192)
  let sourceDepositor ← Abi.word d (p + 224)
  let destinationRecipient ← Abi.word d (p + 256)
  let sourceSigner ← Abi.word d (p + 288)
  let destinationCaller ← Abi.word d (p + 320)
  let value ← Abi.word d (p + 352)
  let salt ← Abi.word d (p + 384)
  let hook ← Abi.bytes d (← Abi.tail d p (p + 416))
  return {
    version, sourceDomain, destinationDomain, sourceContract, destinationContract, sourceToken,
    destinationToken, sourceDepositor, destinationRecipient, sourceSigner, destinationCaller,
    value, salt, hookData := hook.data }

/-- `abi.decode(payload, (BurnIntent))`. -/
def decodeBurnIntent (payload : Bytes) : Option BurnIntent := do
  let p ← Abi.tail payload 0 0
  let maxBlockHeight ← Abi.word payload p
  let maxFee ← Abi.word payload (p + 32)
  let spec ← decodeTransferSpec payload (← Abi.tail payload p (p + 64))
  return { maxBlockHeight, maxFee, spec }

/-- `abi.decode(payload, (address, address, uint256, uint256, uint256, bytes32))`. -/
def decodeReceiveAuth (payload : Bytes) : Option ReceiveAuth := do
  let fromAddr ← Abi.address payload 0
  let toAddr ← Abi.address payload 32
  let value ← Abi.word payload 64
  let validAfter ← Abi.word payload 96
  let validBefore ← Abi.word payload 128
  let nonce ← Abi.word payload 160
  return { fromAddr, toAddr, value, validAfter, validBefore, nonce }

/-! ### Digests -/

section Digests

variable {W : Type} (K : Keccak W)

def transferSpecTypehash : W := K.typeHash
  "TransferSpec(uint32 version,uint32 sourceDomain,uint32 destinationDomain,bytes32 sourceContract,bytes32 destinationContract,bytes32 sourceToken,bytes32 destinationToken,bytes32 sourceDepositor,bytes32 destinationRecipient,bytes32 sourceSigner,bytes32 destinationCaller,uint256 value,bytes32 salt,bytes hookData)"

def burnIntentTypehash : W := K.typeHash
  "BurnIntent(uint256 maxBlockHeight,uint256 maxFee,TransferSpec spec)TransferSpec(uint32 version,uint32 sourceDomain,uint32 destinationDomain,bytes32 sourceContract,bytes32 destinationContract,bytes32 sourceToken,bytes32 destinationToken,bytes32 sourceDepositor,bytes32 destinationRecipient,bytes32 sourceSigner,bytes32 destinationCaller,uint256 value,bytes32 salt,bytes hookData)"

def eip712DomainTypehashNoChain : W := K.typeHash "EIP712Domain(string name,string version)"

def eip712DomainTypehashFull : W := K.typeHash
  "EIP712Domain(string name,string version,uint256 chainId,address verifyingContract)"

def rwaTypehash : W := K.typeHash
  "ReceiveWithAuthorization(address from,address to,uint256 value,uint256 validAfter,uint256 validBefore,bytes32 nonce)"

/-- Gateway's domain has no chain id and no verifying contract. -/
def gatewayDomainSeparator : W :=
  K.hashWords [eip712DomainTypehashNoChain K, K.hash (ascii "GatewayWallet"), K.hash (ascii "1")]

def transferSpecHash (spec : TransferSpec) : W :=
  K.hashWords ([
    transferSpecTypehash K, K.uint spec.version, K.uint spec.sourceDomain,
    K.uint spec.destinationDomain, K.word spec.sourceContract, K.word spec.destinationContract,
    K.word spec.sourceToken, K.word spec.destinationToken] ++ [
    K.word spec.sourceDepositor, K.word spec.destinationRecipient, K.word spec.sourceSigner,
    K.word spec.destinationCaller, K.word spec.value, K.word spec.salt, K.hash spec.hookData])

def burnIntentDigest (intent : BurnIntent) : W :=
  K.hashTyped (gatewayDomainSeparator K)
    (K.hashWords [burnIntentTypehash K, K.word intent.maxBlockHeight, K.word intent.maxFee,
      transferSpecHash K intent.spec])

/-- The domain separator of a contract that names its chain and itself. -/
def domainSeparator (name version : Bytes) (chainid : Uint256) (verifying : Address) : W :=
  K.hashWords [eip712DomainTypehashFull K, K.hash name, K.hash version, K.word chainid,
    K.addr verifying]

def receiveWithAuthorizationDigest (tokenName tokenVersion : Bytes) (chainid : Uint256)
    (token : Address) (a : ReceiveAuth) : W :=
  K.hashTyped (domainSeparator K tokenName tokenVersion chainid token)
    (K.hashWords [rwaTypehash K, K.addr a.fromAddr, K.addr a.toAddr, K.word a.value,
      K.word a.validAfter, K.word a.validBefore, K.word a.nonce])

theorem transferSpecHash_inj {s t : TransferSpec}
    (h : transferSpecHash K s = transferSpecHash K t) : s = t := by
  have hl := K.hashWords_inj h
  simp only [List.cons_append, List.nil_append, List.cons.injEq, and_true, true_and] at hl
  obtain ⟨h1, h2, h3, h4, h5, h6, h7, h8, h9, h10, h11, h12, h13, h14⟩ := hl
  cases s
  cases t
  simp only [TransferSpec.mk.injEq]
  exact ⟨K.uint32_inj h1, K.uint32_inj h2, K.uint32_inj h3, K.word_inj h4, K.word_inj h5,
    K.word_inj h6, K.word_inj h7, K.word_inj h8, K.word_inj h9, K.word_inj h10, K.word_inj h11,
    K.word_inj h12, K.word_inj h13, K.hash_inj h14⟩

/-- **The burn-intent digest binds every field of the intent.** -/
theorem burnIntentDigest_inj {i j : BurnIntent}
    (h : burnIntentDigest K i = burnIntentDigest K j) : i = j := by
  have hl := K.hashWords_inj (K.hashTyped_inj h).2
  simp only [List.cons.injEq, and_true, true_and] at hl
  cases i
  cases j
  simp only [BurnIntent.mk.injEq]
  exact ⟨K.word_inj hl.1, K.word_inj hl.2.1, transferSpecHash_inj K hl.2.2⟩

/-- **The authorization digest binds the token, its domain and every argument.** -/
theorem receiveWithAuthorizationDigest_inj {n v n' v' : Bytes} {c c' : Uint256}
    {t t' : Address} {a b : ReceiveAuth}
    (h : receiveWithAuthorizationDigest K n v c t a
      = receiveWithAuthorizationDigest K n' v' c' t' b) :
    n = n' ∧ v = v' ∧ c = c' ∧ t = t' ∧ a = b := by
  obtain ⟨hd, hs⟩ := K.hashTyped_inj h
  have hd := K.hashWords_inj hd
  have hs := K.hashWords_inj hs
  simp only [List.cons.injEq, and_true, true_and] at hd hs
  obtain ⟨h1, h2, h3, h4, h5, h6⟩ := hs
  refine ⟨K.hash_inj hd.1, K.hash_inj hd.2.1, K.word_inj hd.2.2.1, K.addr_inj hd.2.2.2, ?_⟩
  cases a
  cases b
  simp only [ReceiveAuth.mk.injEq]
  exact ⟨K.addr_inj h1, K.addr_inj h2, K.word_inj h3, K.word_inj h4, K.word_inj h5, K.word_inj h6⟩

/-- Gateway's domain is no domain with a chain id. -/
theorem gatewayDomainSeparator_ne (n v : Bytes) (c : Uint256) (a : Address) :
    gatewayDomainSeparator K ≠ domainSeparator K n v c a := by
  intro h
  have := congrArg List.length (K.hashWords_inj h)
  simp at this

theorem burnIntentDigest_ne_receive (i : BurnIntent) (n v : Bytes) (c : Uint256) (t : Address)
    (a : ReceiveAuth) : burnIntentDigest K i ≠ receiveWithAuthorizationDigest K n v c t a :=
  fun h => gatewayDomainSeparator_ne K n v c t (K.hashTyped_inj h).1

end Digests

/-! ### Scalar checks -/

def solanaDomain : Uint32 := 5

/-- Every domain but Solana has twenty-byte addresses. -/
def isEvmDomain (domain : Uint32) : Bool := domain != solanaDomain

def isCanonicalAddress (value : Bytes32) : Bool := value >>> 160 == 0

theorem toBytes32_toAddress {value : Bytes32} (h : isCanonicalAddress value = true) :
    toBytes32 (toAddress value) = value := by
  have hshift : value >>> 160 = 0 := by simpa [isCanonicalAddress] using h
  have hdiv := congrArg BitVec.toNat hshift
  rw [BitVec.toNat_ushiftRight, Nat.shiftRight_eq_div_pow] at hdiv
  apply BitVec.eq_of_toNat_eq
  rw [toNat_toBytes32, toAddress, BitVec.toNat_setWidth, Nat.mod_eq_of_lt]
  exact (Nat.div_eq_zero_iff_lt (by positivity)).mp hdiv

theorem isCanonicalAddress_toBytes32 (a : Address) : isCanonicalAddress (toBytes32 a) = true := by
  have := a.isLt
  rw [isCanonicalAddress, beq_iff_eq]
  apply BitVec.eq_of_toNat_eq
  rw [BitVec.toNat_ushiftRight, toNat_toBytes32, Nat.shiftRight_eq_div_pow,
    Nat.div_eq_of_lt this]
  rfl

/-- Whether a destination word has the address shape of its domain. -/
def matchesDomainShape (domain : Uint32) (word : Bytes32) : Bool :=
  if word = 0 then false
  else if isEvmDomain domain then isCanonicalAddress word else !isCanonicalAddress word

/-- On an EVM domain the shape is that of a non-zero padded address. -/
theorem matchesDomainShape_evm {domain : Uint32} (h : isEvmDomain domain = true) (word : Bytes32) :
    matchesDomainShape domain word = true ↔ word ≠ 0 ∧ isCanonicalAddress word = true := by
  rw [matchesDomainShape, h, if_pos rfl]
  split_ifs with hz
  · exact ⟨fun h => absurd h (by simp), fun h => absurd hz h.1⟩
  · exact ⟨fun hc => ⟨hz, hc⟩, fun h => h.2⟩

/-- The scalar half of the policy, with the source token when it holds. -/
def checkIntentShape (blockNumber : Uint256) (intent : BurnIntent) (limits : IntentLimits) :
    Bool × Address :=
  if intent.spec.version ≠ 1 then (false, 0)
  else if intent.spec.sourceDomain ≠ limits.sourceDomain then (false, 0)
  else if intent.spec.sourceContract ≠ toBytes32 limits.gatewayWallet then (false, 0)
  else if intent.spec.sourceDepositor ≠ toBytes32 limits.depositor then (false, 0)
  else if intent.spec.sourceSigner ≠ toBytes32 limits.depositor then (false, 0)
  else if intent.maxBlockHeight > blockNumber
      ∧ intent.maxBlockHeight - blockNumber > limits.maxExpiryBlocks then (false, 0)
  else if !isCanonicalAddress intent.spec.sourceToken then (false, 0)
  else if intent.spec.hookData.length ≠ 0 then (false, 0)
  else if intent.spec.value = 0 ∨ intent.spec.value > limits.perIntentCap then (false, 0)
  else if intent.maxFee > limits.maxFeeCap then (false, 0)
  else (true, toAddress intent.spec.sourceToken)

/-- The scalar rules, one by one; the expiry is a bound on integers. -/
structure IntentShape (blockNumber : Uint256) (intent : BurnIntent) (limits : IntentLimits) :
    Prop where
  version : intent.spec.version = 1
  sourceDomain : intent.spec.sourceDomain = limits.sourceDomain
  sourceContract : intent.spec.sourceContract = toBytes32 limits.gatewayWallet
  sourceDepositor : intent.spec.sourceDepositor = toBytes32 limits.depositor
  sourceSigner : intent.spec.sourceSigner = toBytes32 limits.depositor
  expiry : intent.maxBlockHeight.toNat ≤ blockNumber.toNat + limits.maxExpiryBlocks.toNat
  sourceToken : isCanonicalAddress intent.spec.sourceToken = true
  hookData : intent.spec.hookData = []
  value_pos : 0 < intent.spec.value.toNat
  value_le : intent.spec.value.toNat ≤ limits.perIntentCap.toNat
  maxFee_le : intent.maxFee.toNat ≤ limits.maxFeeCap.toNat

theorem expiry_iff (height number window : Uint256) :
    ¬ (height > number ∧ height - number > window)
      ↔ height.toNat ≤ number.toNat + window.toNat := by
  have hh := height.isLt
  have hn := number.isLt
  simp only [gt_iff_lt, BitVec.lt_def, BitVec.toNat_sub]
  constructor
  · intro h
    by_contra hc
    refine h ⟨by omega, ?_⟩
    rw [show 2 ^ 256 - number.toNat + height.toNat
      = height.toNat - number.toNat + 2 ^ 256 by omega, Nat.add_mod_right, Nat.mod_eq_of_lt]
    all_goals omega
  · rintro h ⟨h1, h2⟩
    rw [show 2 ^ 256 - number.toNat + height.toNat
      = height.toNat - number.toNat + 2 ^ 256 by omega, Nat.add_mod_right, Nat.mod_eq_of_lt] at h2
    all_goals omega

/-- A check that returns `(false, 0)` when it fails. -/
theorem check_eq_true_iff {p : Prop} [Decidable p] {x : Bool × Address} {token : Address} :
    (if p then (false, 0) else x) = (true, token) ↔ ¬ p ∧ x = (true, token) := by
  by_cases h : p
  · simp [h]
  · simp [h]

/-- **`checkIntentShape` decides the scalar rules.** -/
theorem checkIntentShape_iff (blockNumber : Uint256) (intent : BurnIntent) (limits : IntentLimits)
    (token : Address) :
    checkIntentShape blockNumber intent limits = (true, token)
      ↔ IntentShape blockNumber intent limits ∧ token = toAddress intent.spec.sourceToken := by
  have hzero : intent.spec.value = 0 ↔ intent.spec.value.toNat = 0 := by
    rw [← BitVec.toNat_inj]
    rfl
  rw [checkIntentShape]
  simp only [check_eq_true_iff, ne_eq, not_not, expiry_iff, not_or, Prod.mk.injEq, true_and]
  simp only [hzero, gt_iff_lt, BitVec.lt_def, Nat.not_lt]
  constructor
  · rintro ⟨h1, h2, h3, h4, h5, h6, h7, h8, h9, h10, htoken⟩
    exact ⟨⟨h1, h2, h3, h4, h5, h6, by simpa using h7, List.eq_nil_of_length_eq_zero h8,
      Nat.pos_of_ne_zero h9.1, h9.2, h10⟩, htoken.symm⟩
  · rintro ⟨hs, rfl⟩
    exact ⟨hs.version, hs.sourceDomain, hs.sourceContract, hs.sourceDepositor, hs.sourceSigner,
      hs.expiry, by simp [hs.sourceToken], by simp [hs.hookData],
      ⟨Nat.pos_iff_ne_zero.mp hs.value_pos, hs.value_le⟩, hs.maxFee_le, rfl⟩

/-! ### Nested signatures -/

/-- What the contracts ask of other accounts and of the ECDSA library while
they check signatures, at one moment: `tryRecover hash v r s` is OpenZeppelin's
recovery (`none` is any of its errors), `staticcall gas a hash sig` the return
data of `isValidSignature(hash, sig)` on `a` under a gas cap (`none` when the
call fails), and `beyond` the memory outside the value being read. -/
structure SigOracle (W : Type) where
  tryRecover : W → UInt8 → Bytes32 → Bytes32 → Option Address
  codeLength : Address → ℕ
  staticcall : ℕ → Address → W → Bytes → Option Bytes
  beyond : Memory

def erc1271MagicValue : Bytes4 := 0x1626ba7e

/-- An ERC-1271 check that never reverts: the callee must have code, succeed,
and return at least a word whose value is exactly the padded magic value. -/
def isValidERC1271 {W : Type} (O : SigOracle W) (signer : Address) (hash : W) (sig : Bytes)
    (gasCap : ℕ) : Bool :=
  if O.codeLength signer = 0 then false
  else match O.staticcall gasCap signer hash sig with
    | none => false
    | some ret =>
      decide (32 ≤ ret.length) && wordAt ret 0 == (erc1271MagicValue.setWidth 256) <<< 224

end Bufi.Gateway
