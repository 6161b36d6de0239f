import Bufi.Evm.Abi
import Bufi.Evm.Checks
import Bufi.Session.Limits

/-!
# The permissions of a session key

The structs of `SessionKeyPermissionsBase.sol`, and the eight updates of
`ISessionKeyPermissionsUpdates`: an update is bytes, `decodeUpdate` is how
`_performSessionKeyPermissionsUpdate` reads them.

`Permissions` is everything that is stored under one key id, as one value: the
key's own data, the data of every contract and of every function.  It is what
an update means, apart from where its pieces are stored; `Permissions.update`
performs one, and `Permissions.default` is what an unused key id has.
-/

namespace Bufi.Session

open Bufi.Evm

/-! ### Structs -/

inductive ContractAccessControlType
  | allowlist
  | denylist
  | allowAllAccess
  deriving DecidableEq

structure SessionKeyData where
  contractAccessControlType : ContractAccessControlType
  validAfter : Uint48
  validUntil : Uint48
  hasRequiredPaymaster : Bool
  hasGasLimit : Bool
  nativeTokenSpendLimitBypassed : Bool
  gasLimitResetThisBundle : Bool
  gasLimitTimeInfo : SpendLimitTimeInfo
  nativeTokenSpendLimitTimeInfo : SpendLimitTimeInfo
  requiredPaymaster : Address
  gasLimit : SpendLimit
  nativeTokenSpendLimit : SpendLimit
  deriving DecidableEq

/-- Zeroed storage: an allowlist, and a native token limit of zero. -/
def SessionKeyData.default : SessionKeyData where
  contractAccessControlType := .allowlist
  validAfter := 0
  validUntil := 0
  hasRequiredPaymaster := false
  hasGasLimit := false
  nativeTokenSpendLimitBypassed := false
  gasLimitResetThisBundle := false
  gasLimitTimeInfo := ⟨0, 0⟩
  nativeTokenSpendLimitTimeInfo := ⟨0, 0⟩
  requiredPaymaster := 0
  gasLimit := ⟨0, 0⟩
  nativeTokenSpendLimit := ⟨0, 0⟩

structure ContractData where
  isOnList : Bool
  checkSelectors : Bool
  isERC20WithSpendLimit : Bool
  erc20SpendLimitTimeInfo : SpendLimitTimeInfo
  erc20SpendLimit : SpendLimit
  deriving DecidableEq

/-- Zeroed storage: not on the list. -/
def ContractData.default : ContractData := ⟨false, false, false, ⟨0, 0⟩, ⟨0, 0⟩⟩

structure FunctionData where
  isOnList : Bool
  deriving DecidableEq

namespace SessionKeyData

def gasBudget (d : SessionKeyData) : Budget := (d.gasLimitTimeInfo, d.gasLimit)

def withGasBudget (d : SessionKeyData) (b : Budget) : SessionKeyData :=
  { d with gasLimitTimeInfo := b.1, gasLimit := b.2 }

def nativeBudget (d : SessionKeyData) : Budget :=
  (d.nativeTokenSpendLimitTimeInfo, d.nativeTokenSpendLimit)

def withNativeBudget (d : SessionKeyData) (b : Budget) : SessionKeyData :=
  { d with nativeTokenSpendLimitTimeInfo := b.1, nativeTokenSpendLimit := b.2 }

end SessionKeyData

namespace ContractData

def budget (d : ContractData) : Budget := (d.erc20SpendLimitTimeInfo, d.erc20SpendLimit)

def withBudget (d : ContractData) (b : Budget) : ContractData :=
  { d with erc20SpendLimitTimeInfo := b.1, erc20SpendLimit := b.2 }

end ContractData

inductive Revert
  | invalidSessionKey (sessionKey : Address)
  | invalidPermissionsUpdate (updateSelector : Bytes4)
  | invalidToken (token : Address)
  | erc20SpendLimitExceeded (account sessionKey token : Address)
  | nativeTokenSpendLimitExceeded (account sessionKey : Address)
  | invalidSignature (sessionKey : Address)
  | permissionsCheckFailed
  | lengthMismatch
  | alreadyInitialized
  | notImplemented (functionId : Uint8)
  | executeFromPluginExternal
  | badArguments
  | panic
  deriving DecidableEq

/-! ### The writes of the updates -/

namespace SessionKeyData

def setAccessListType (d : SessionKeyData) (t : ContractAccessControlType) : SessionKeyData :=
  { d with contractAccessControlType := t }

def updateTimeRange (d : SessionKeyData) (validAfter validUntil : Uint48) : SessionKeyData :=
  { d with validAfter, validUntil }

/-- The flag of the native token limit is inverted. -/
def setNativeTokenSpendLimit (d : SessionKeyData) (timestamp spendLimit : Uint256)
    (refreshInterval : Uint48) : SessionKeyData :=
  let (enabled, b) := updateSpendLimits timestamp spendLimit refreshInterval d.nativeBudget
  { d.withNativeBudget b with nativeTokenSpendLimitBypassed := !enabled }

def setGasSpendLimit (d : SessionKeyData) (timestamp spendLimit : Uint256)
    (refreshInterval : Uint48) : SessionKeyData :=
  let (enabled, b) := updateSpendLimits timestamp spendLimit refreshInterval d.gasBudget
  { d.withGasBudget b with gasLimitResetThisBundle := false, hasGasLimit := enabled }

/-- The zero address lifts the rule and leaves the paymaster behind. -/
def setRequiredPaymaster (d : SessionKeyData) (requiredPaymaster : Address) : SessionKeyData :=
  if requiredPaymaster = 0 then { d with hasRequiredPaymaster := false }
  else { d with hasRequiredPaymaster := true, requiredPaymaster }

end SessionKeyData

namespace ContractData

def updateAccessListAddressEntry (d : ContractData) (isOnList checkSelectors : Bool) :
    ContractData :=
  { d with isOnList, checkSelectors }

def setERC20SpendLimit (d : ContractData) (timestamp spendLimit : Uint256)
    (refreshInterval : Uint48) : ContractData :=
  let (enabled, b) := updateSpendLimits timestamp spendLimit refreshInterval d.budget
  { d.withBudget b with isERC20WithSpendLimit := enabled }

end ContractData

/-! ### Decoding an update -/

/-- `bytes4(data)`, padded with zeros on the right. -/
def selectorOf (data : Bytes) : Bytes4 :=
  BitVec.ofNat 32 (beNat ((data ++ [0, 0, 0, 0]).take 4))

def selSetAccessListType : Bytes4 := 0x8f2920d8
def selUpdateAccessListAddressEntry : Bytes4 := 0x9e7345eb
def selUpdateAccessListFunctionEntry : Bytes4 := 0x0c8de002
def selUpdateTimeRange : Bytes4 := 0x9a37b113
def selSetNativeTokenSpendLimit : Bytes4 := 0xb3a26f5c
def selSetERC20SpendLimit : Bytes4 := 0x7b1f0893
def selSetGasSpendLimit : Bytes4 := 0x585ca4a5
def selSetRequiredPaymaster : Bytes4 := 0xb85631d7

/-- A permissions update with its arguments. -/
inductive PermissionsUpdate
  | setAccessListType (t : ContractAccessControlType)
  | updateAccessListAddressEntry (contractAddress : Address) (isOnList checkSelectors : Bool)
  | updateAccessListFunctionEntry (contractAddress : Address) (selector : Bytes4) (isOnList : Bool)
  | updateTimeRange (validAfter validUntil : Uint48)
  | setNativeTokenSpendLimit (spendLimit : Uint256) (refreshInterval : Uint48)
  | setERC20SpendLimit (token : Address) (spendLimit : Uint256) (refreshInterval : Uint48)
  | setGasSpendLimit (spendLimit : Uint256) (refreshInterval : Uint48)
  | setRequiredPaymaster (requiredPaymaster : Address)
  deriving DecidableEq

/-- An enum value; one out of range reverts. -/
def decodeAccessControlType (d : Bytes) (p : ℕ) : Option ContractAccessControlType :=
  (Abi.word d p).bind (fun w =>
    if w = 0 then some .allowlist
    else if w = 1 then some .denylist
    else if w = 2 then some .allowAllAccess
    else none)

/-- The arguments of the update with a selector; `none` for the outer option is
an unknown selector, for the inner one a bad encoding. -/
def decodeArguments (sel : Bytes4) (a : Bytes) : Option (Option PermissionsUpdate) :=
  if sel = selSetAccessListType then some ((decodeAccessControlType a 0).map .setAccessListType)
  else if sel = selUpdateAccessListAddressEntry then some (do
    let contractAddress ← Abi.address a 0
    return .updateAccessListAddressEntry contractAddress (← Abi.bool a 32) (← Abi.bool a 64))
  else if sel = selUpdateAccessListFunctionEntry then some (do
    let contractAddress ← Abi.address a 0
    return .updateAccessListFunctionEntry contractAddress (← Abi.bytes4 a 32) (← Abi.bool a 64))
  else if sel = selUpdateTimeRange then some (do
    return .updateTimeRange (← Abi.uint 48 a 0) (← Abi.uint 48 a 32))
  else if sel = selSetNativeTokenSpendLimit then some (do
    return .setNativeTokenSpendLimit (← Abi.word a 0) (← Abi.uint 48 a 32))
  else if sel = selSetERC20SpendLimit then some (do
    return .setERC20SpendLimit (← Abi.address a 0) (← Abi.word a 32) (← Abi.uint 48 a 64))
  else if sel = selSetGasSpendLimit then some (do
    return .setGasSpendLimit (← Abi.word a 0) (← Abi.uint 48 a 32))
  else if sel = selSetRequiredPaymaster then some ((Abi.address a 0).map .setRequiredPaymaster)
  else none

def decodeUpdate (update : Bytes) : Except Revert PermissionsUpdate := do
  let sel := selectorOf update
  require (¬ update.length < 4) (.invalidPermissionsUpdate sel)
  let args ← orRevert (decodeArguments sel (update.drop 4)) (.invalidPermissionsUpdate sel)
  orRevert args .badArguments

/-! ### Permissions as one value -/

/-- What is stored under one key id. -/
@[ext] structure Permissions where
  key : SessionKeyData
  contracts : Address → ContractData
  functions : Address → Bytes4 → FunctionData

namespace Permissions

/-- An empty allowlist, no limit but that of the native token, which is zero. -/
def default : Permissions where
  key := .default
  contracts _ := .default
  functions _ _ := ⟨false⟩

def mapKey (p : Permissions) (f : SessionKeyData → SessionKeyData) : Permissions :=
  { p with key := f p.key }

def mapContract (p : Permissions) (c : Address) (f : ContractData → ContractData) : Permissions :=
  { p with contracts := Function.update p.contracts c (f (p.contracts c)) }

def setFunction (p : Permissions) (c : Address) (selector : Bytes4) (d : FunctionData) :
    Permissions :=
  { p with functions := Function.update p.functions c (Function.update (p.functions c) selector d) }

theorem contracts_mapContract (p : Permissions) (c x : Address)
    (f : ContractData → ContractData) :
    (p.mapContract c f).contracts x = if x = c then f (p.contracts c) else p.contracts x :=
  Function.update_apply _ _ _ _

theorem functions_setFunction (p : Permissions) (c x : Address) (selector y : Bytes4)
    (d : FunctionData) :
    (p.setFunction c selector d).functions x y =
      if x = c ∧ y = selector then d else p.functions x y := by
  simp only [setFunction, Function.update_apply]
  by_cases hx : x = c
  · rw [if_pos hx, Function.update_apply, hx]
    simp only [true_and]
  · rw [if_neg hx, if_neg (fun h => hx h.1)]

/-- What an update makes of the permissions. -/
def perform (timestamp : Uint256) (p : Permissions) :
    PermissionsUpdate → Except Revert Permissions
  | .setAccessListType t => pure (p.mapKey (·.setAccessListType t))
  | .updateAccessListAddressEntry c isOnList checkSelectors =>
    pure (p.mapContract c (·.updateAccessListAddressEntry isOnList checkSelectors))
  | .updateAccessListFunctionEntry c selector isOnList => pure (p.setFunction c selector ⟨isOnList⟩)
  | .updateTimeRange validAfter validUntil =>
    pure (p.mapKey (·.updateTimeRange validAfter validUntil))
  | .setNativeTokenSpendLimit spendLimit refreshInterval =>
    pure (p.mapKey (·.setNativeTokenSpendLimit timestamp spendLimit refreshInterval))
  | .setERC20SpendLimit token spendLimit refreshInterval => do
    require (token ≠ 0) (.invalidToken token)
    pure (p.mapContract token (·.setERC20SpendLimit timestamp spendLimit refreshInterval))
  | .setGasSpendLimit spendLimit refreshInterval =>
    pure (p.mapKey (·.setGasSpendLimit timestamp spendLimit refreshInterval))
  | .setRequiredPaymaster requiredPaymaster =>
    pure (p.mapKey (·.setRequiredPaymaster requiredPaymaster))

def update (timestamp : Uint256) (p : Permissions) (u : Bytes) : Except Revert Permissions := do
  p.perform timestamp (← decodeUpdate u)

/-- The updates one after another. -/
def updateAll (timestamp : Uint256) (p : Permissions) (updates : List Bytes) :
    Except Revert Permissions :=
  updates.foldlM (update timestamp) p

end Permissions

end Bufi.Session
