import Bufi.Session.Storage

/-!
# Validating a user operation

The checks of `SessionKeyPermissions.sol` that run during validation.  Whether
a call is within the access lists is `checkCallPermissions`; the limits of the
native token and of gas, the nonce lane, the paymaster and the time range are
collected by `checkUserOpPermissions`.  Only the gas limit is written here: the
limits of ERC-20 tokens are left to the execution.

The packed fields of a user operation are read by the EntryPoint's own library,
`UserOperationLib`.
-/

namespace Bufi.Session

open Bufi.Evm

structure Call where
  target : Address
  value : Uint256
  data : Bytes
  deriving DecidableEq

/-- The fields of a user operation the plugin reads. -/
structure PackedUserOperation where
  nonce : Uint256
  callData : Bytes
  accountGasLimits : Bytes32
  preVerificationGas : Uint256
  gasFees : Bytes32
  paymasterAndData : Bytes
  signature : Bytes

/-- The EntryPoint's unpacking; `none` is a slice past the end. -/
structure UserOperationLib where
  unpackVerificationGasLimit : PackedUserOperation → Uint256
  unpackCallGasLimit : PackedUserOperation → Uint256
  unpackMaxFeePerGas : PackedUserOperation → Uint256
  unpackPaymasterStaticFields : Bytes → Option (Address × Uint256 × Uint256)

/-! ### ERC-20 calls -/

/-- `IERC20.transfer.selector`. -/
def selTransfer : Bytes4 := 0xa9059cbb
/-- `IERC20.approve.selector`. -/
def selApprove : Bytes4 := 0x095ea7b3

def isAllowedERC20Function (selector : Bytes4) : Bool :=
  selector == selTransfer || selector == selApprove

/-- `_getTokenSpendAmount`: what a call spends of a token. -/
def getTokenSpendAmount (callData : Bytes) : Uint256 :=
  if isAllowedERC20Function (selectorOf callData) then
    if callData.length < 68 then 0 else wordAt callData 36
  else 0

/-- The check at the end of `_checkCallPermissions`: a token with a spend limit
only takes the functions that are counted. -/
def checkERC20Selector (contractData : ContractData) (selector : Bytes4)
    (validationSuccess : Bool) : Bool :=
  if contractData.isERC20WithSpendLimit && !isAllowedERC20Function selector then false
  else validationSuccess

theorem allowed_of_checkERC20Selector {d : ContractData} {selector : Bytes4} {success : Bool}
    (h : checkERC20Selector d selector success = true) (hd : d.isERC20WithSpendLimit = true) :
    isAllowedERC20Function selector = true := by
  by_contra hc
  rw [Bool.not_eq_true] at hc
  rw [checkERC20Selector, hd, hc] at h
  exact Bool.false_ne_true h

section

variable {W S : Type} (K : Keccak W) (s : State W S) (account : Address)

/-- `_checkCallPermissions`. -/
def checkCallPermissions (accessControlType : ContractAccessControlType) (keyId : Bytes32)
    (target : Address) (callData : Bytes) : Bool :=
  let selector := selectorOf callData
  let contractData := s.contractDataOf K account keyId target
  let functionData := s.functionDataOf K account keyId target selector
  match accessControlType with
  | .allowlist =>
    if !contractData.isOnList then false
    else if !contractData.checkSelectors then true
    else checkERC20Selector contractData selector functionData.isOnList
  | .denylist =>
    if !contractData.isOnList then true
    else if !contractData.checkSelectors then false
    else checkERC20Selector contractData selector (!functionData.isOnList)
  | .allowAllAccess => checkERC20Selector contractData selector true

end

/-! ### Native token, gas and paymaster -/

/-- The checked sum of the values of the calls. -/
def sumValues (calls : List Call) : Option ℕ :=
  calls.foldlM (fun total call => checkedAdd total call.value.toNat) 0

/-- The native token limit of a key: whether the spend fits, and from when on. -/
def checkNativeSpend (d : SessionKeyData) (spend : Uint256) : Option (Bool × Uint48) :=
  if d.nativeTokenSpendLimitBypassed then some (true, 0)
  else checkSpendLimitUsage spend d.nativeBudget

/-- `_checkAndUpdateGasLimitUsage`: its results, and the data of the key. -/
def checkAndUpdateGasLimitUsage (newUsage : Uint256) (d : SessionKeyData) :
    Option (Bool × Uint48 × SessionKeyData) :=
  let time := d.gasLimitTimeInfo
  let gasLimit := d.gasLimit.limitAmount
  let newTotalUsage := newUsage + d.gasLimit.limitUsed
  if newTotalUsage < newUsage then some (false, 0, d)
  else if time.refreshInterval = 0 then
    if newTotalUsage ≤ gasLimit then
      some (true, 0, { d with gasLimit := { d.gasLimit with limitUsed := newTotalUsage } })
    else some (false, 0, d)
  else if newTotalUsage ≤ gasLimit then
    (if d.gasLimitResetThisBundle then checkedAdd48 time.lastUsed time.refreshInterval
      else some 0).map (fun validAfter =>
        (true, validAfter, { d with gasLimit := { d.gasLimit with limitUsed := newTotalUsage } }))
  else if newUsage ≤ gasLimit ∧ d.gasLimitResetThisBundle = false then
    (checkedAdd48 time.lastUsed time.refreshInterval).map (fun validAfter =>
      (true, validAfter, { d with
        gasLimitResetThisBundle := true
        gasLimit := { d.gasLimit with limitUsed := newUsage } }))
  else some (false, 0, d)

/-- The paymaster's gas limits, zero without a paymaster. -/
def paymasterGasLimits (lib : UserOperationLib) (userOp : PackedUserOperation) :
    Except Revert (Uint256 × Uint256) :=
  if 0 < userOp.paymasterAndData.length then
    orRevert ((lib.unpackPaymasterStaticFields userOp.paymasterAndData).map Prod.snd) .badArguments
  else pure (0, 0)

/-- `_getMaxGasCost`. -/
def getMaxGasCost (lib : UserOperationLib) (userOp : PackedUserOperation) :
    Except Revert Uint256 := do
  let (verification, postOp) ← paymasterGasLimits lib userOp
  let requiredGas ← orRevert
    ([lib.unpackCallGasLimit userOp, verification, postOp, userOp.preVerificationGas].foldlM
      (fun total x => checkedAdd total x.toNat) (lib.unpackVerificationGasLimit userOp).toNat)
    .panic
  let cost ← orRevert (checkedMul requiredGas (lib.unpackMaxFeePerGas userOp).toNat) .panic
  pure (BitVec.ofNat 256 cost)

/-- The gas limit of a key, if it has one. -/
def checkGas (lib : UserOperationLib) (userOp : PackedUserOperation) (d : SessionKeyData) :
    Except Revert (Bool × Uint48 × SessionKeyData) :=
  if d.hasGasLimit then do
    orRevert (checkAndUpdateGasLimitUsage (← getMaxGasCost lib userOp) d) .panic
  else pure (true, 0, d)

/-- `address(bytes20(data))`, padded with zeros on the right. -/
def paymasterOf (paymasterAndData : Bytes) : Address :=
  BitVec.ofNat 160 (beNat ((paymasterAndData ++ List.replicate 20 0).take 20))

def checkPaymaster (d : SessionKeyData) (userOp : PackedUserOperation) : Bool :=
  !d.hasRequiredPaymaster || paymasterOf userOp.paymasterAndData == d.requiredPaymaster

/-- The nonce lane is the session key. -/
def checkNonceLane (userOp : PackedUserOperation) (sessionKey : Address) : Bool :=
  (userOp.nonce >>> 64).setWidth 192 == sessionKey.setWidth 192

def max48 (a b : Uint48) : Uint48 := if b < a then a else b

/-- `SIG_VALIDATION_PASSED` and `SIG_VALIDATION_FAILED` with a time range. -/
def packValidation (success : Bool) (validUntil validAfter : Uint48) : Uint256 :=
  (if success then 0 else 1) ||| (validUntil.setWidth 256 <<< 160)
    ||| (validAfter.setWidth 256 <<< 208)

section

variable {W S : Type} [DecidableEq W] (K : Keccak W) (lib : UserOperationLib) (s : State W S)
  (account : Address)

/-- `_checkUserOpPermissions`. -/
def checkUserOpPermissions (userOp : PackedUserOperation) (calls : List Call)
    (sessionKey : Address) : Except Revert (Uint256 × State W S) := do
  let keyId := s.sessionKeyIdOf K account sessionKey
  let d := s.sessionKeyDataOf K account keyId
  let nativeTokenSpend ← orRevert (sumValues calls) .panic
  let callsOk := decide (0 < calls.length) && calls.all (fun call =>
    checkCallPermissions K s account d.contractAccessControlType keyId call.target call.data)
  let (spendOk, spendValidAfter) ←
    orRevert (checkNativeSpend d (BitVec.ofNat 256 nativeTokenSpend)) .panic
  let (gasOk, gasValidAfter, d') ← checkGas lib userOp d
  let success := callsOk && spendOk && checkNonceLane userOp sessionKey && gasOk
    && checkPaymaster d userOp
  let validAfter := max48 (max48 d.validAfter spendValidAfter) gasValidAfter
  pure (packValidation success d.validUntil validAfter, s.setKeyData K account keyId d')

end

end Bufi.Session
