import Bufi.Evm.Run
import Bufi.Session.Validation

/-!
# The session key plugin

`BufiSessionKeyPlugin.sol`: the keys of an account are added, removed, rotated
and given permissions by the account itself; `userOpValidationFunction` admits
a user operation of a key and `executeWithSessionKey` runs its calls.  A key is
known by an id, which a counter of the account hands out; permissions belong to
the id and are never deleted.

`executeWithSessionKey` writes to storage before it makes its first call, so a
call that comes back to the plugin is a later step of the history; `callsReturn`
is whether all the calls return.  Everything reverts otherwise.

The set of keys, the unpacking of user operations and the recovery of a signer
are libraries outside the repository, and are fields of `Env`.
-/

namespace Bufi.Session

open Bufi.Evm

/-- The libraries: `tryRecover h sig` is the signer of the Ethereum signed
message hash of `h`, `none` being an error. -/
structure Env (W S : Type) where
  keccak : Keccak W
  set : LinkedSet S
  lib : UserOperationLib
  tryRecover : Bytes32 → Bytes → Option Address

/-! ### Arguments -/

def decodeCall (d : Bytes) (p : ℕ) : Option Call := do
  let target ← Abi.address d p
  let value ← Abi.word d (p + 32)
  let data ← Abi.bytes d (← Abi.tail d p (p + 64))
  return ⟨target, value, data.data⟩

/-- `abi.decode(callData[4:], (Call[], address))`. -/
def decodeExecute (callData : Bytes) : Option (List Call × Address) := do
  let a := callData.drop 4
  guard (4 ≤ callData.length)
  let calls ← Abi.dynArray decodeCall a (← Abi.tail a 0 0)
  return (calls, ← Abi.address a 32)

/-- `abi.decode(data, (address[], bytes32[], bytes[][]))`. -/
def decodeInstall (data : Bytes) : Option (List Address × List Bytes32 × List (List Bytes)) := do
  let keys ← Abi.array Abi.address data (← Abi.tail data 0 0)
  let tags ← Abi.array Abi.word data (← Abi.tail data 0 32)
  let bytesArray := Abi.dynArray (fun d p => (Abi.bytes d p).map MemBytes.data)
  let updates ← Abi.dynArray bytesArray data (← Abi.tail data 0 64)
  return (keys, tags, updates)

section

variable {W S : Type} [DecidableEq W] (E : Env W S) (timestamp : Uint256) (account : Address)

/-! ### Permissions -/

/-- The writes of an update under a key id. -/
def performUpdate (id : Bytes32) (s : State W S) : PermissionsUpdate → Except Revert (State W S)
  | .setAccessListType t =>
    pure (s.setKeyData E.keccak account id
      ((s.sessionKeyDataOf E.keccak account id).setAccessListType t))
  | .updateAccessListAddressEntry c isOnList checkSelectors =>
    pure (s.setContractData E.keccak account id c
      ((s.contractDataOf E.keccak account id c).updateAccessListAddressEntry isOnList
        checkSelectors))
  | .updateAccessListFunctionEntry c selector isOnList =>
    pure (s.setFunctionData E.keccak account id c selector ⟨isOnList⟩)
  | .updateTimeRange validAfter validUntil =>
    pure (s.setKeyData E.keccak account id
      ((s.sessionKeyDataOf E.keccak account id).updateTimeRange validAfter validUntil))
  | .setNativeTokenSpendLimit spendLimit refreshInterval =>
    pure (s.setKeyData E.keccak account id
      ((s.sessionKeyDataOf E.keccak account id).setNativeTokenSpendLimit timestamp spendLimit
        refreshInterval))
  | .setERC20SpendLimit token spendLimit refreshInterval => do
    require (token ≠ 0) (.invalidToken token)
    pure (s.setContractData E.keccak account id token
      ((s.contractDataOf E.keccak account id token).setERC20SpendLimit timestamp spendLimit
        refreshInterval))
  | .setGasSpendLimit spendLimit refreshInterval =>
    pure (s.setKeyData E.keccak account id
      ((s.sessionKeyDataOf E.keccak account id).setGasSpendLimit timestamp spendLimit
        refreshInterval))
  | .setRequiredPaymaster requiredPaymaster =>
    pure (s.setKeyData E.keccak account id
      ((s.sessionKeyDataOf E.keccak account id).setRequiredPaymaster requiredPaymaster))

/-- `_performSessionKeyPermissionsUpdate`. -/
def performSessionKeyPermissionsUpdate (id : Bytes32) (s : State W S) (update : Bytes) :
    Except Revert (State W S) := do
  performUpdate E timestamp account id s (← decodeUpdate update)

variable (s : State W S)

/-- `_loadSessionKeyId`. -/
def loadSessionKeyId {W S : Type} (K : Keccak W) (s : State W S) (account sessionKey : Address) :
    Except Revert Bytes32 := do
  let id := s.sessionKeyIdOf K account sessionKey
  require (id ≠ 0) (.invalidSessionKey sessionKey)
  pure id

def updateKeyPermissions (sessionKey : Address) (updates : List Bytes) :
    Except Revert (State W S) := do
  let id ← loadSessionKeyId E.keccak s account sessionKey
  updates.foldlM (performSessionKeyPermissionsUpdate E timestamp account id) s

/-- The gas window starts anew if a validation has asked for it. -/
def SessionKeyData.finishGasReset (timestamp : Uint256) (d : SessionKeyData) : SessionKeyData :=
  if d.gasLimitResetThisBundle then
    { d with
      gasLimitResetThisBundle := false
      gasLimitTimeInfo := { d.gasLimitTimeInfo with lastUsed := toUint48 timestamp } }
  else d

/-- Anybody may call this, for any account. -/
def resetSessionKeyGasLimitTimestamp (sessionKey : Address) : Except Revert (State W S) := do
  let id ← loadSessionKeyId E.keccak s account sessionKey
  let d := s.sessionKeyDataOf E.keccak account id
  pure (s.setKeyData E.keccak account id (d.finishGasReset timestamp))

/-! ### Keys -/

/-- `++_keyIdCounter[account]`. -/
def nextKeyId (counter : Uint256) : Option Uint256 :=
  if counter.toNat + 1 < 2 ^ 256 then some (counter + 1) else none

/-- The tag only goes into the event. -/
def addSessionKey (sessionKey : Address) (_tag : Bytes32) (permissionUpdates : List Bytes) :
    Except Revert (State W S) := do
  let keys ← orRevert (E.set.tryAdd (s.sessionKeys account) sessionKey)
    (.invalidSessionKey sessionKey)
  let id ← orRevert (nextKeyId (s.keyIdCounter account)) .panic
  let s := { s with
    sessionKeys := Function.update s.sessionKeys account keys
    keyIdCounter := Function.update s.keyIdCounter account id }
  let s := s.updateSessionKeyId E.keccak account sessionKey id
  if 0 < permissionUpdates.length then
    updateKeyPermissions E timestamp account s sessionKey permissionUpdates
  else pure s

def removeSessionKey (sessionKey : Address) (predecessor : Bytes32) :
    Except Revert (State W S) := do
  let keys ← orRevert (E.set.tryRemoveKnown (s.sessionKeys account) sessionKey predecessor)
    (.invalidSessionKey sessionKey)
  let s := { s with sessionKeys := Function.update s.sessionKeys account keys }
  pure (s.updateSessionKeyId E.keccak account sessionKey 0)

def rotateSessionKey (oldSessionKey : Address) (predecessor : Bytes32) (newSessionKey : Address) :
    Except Revert (State W S) := do
  let keys ← orRevert (E.set.tryRemoveKnown (s.sessionKeys account) oldSessionKey predecessor)
    (.invalidSessionKey oldSessionKey)
  let keys ← orRevert (E.set.tryAdd keys newSessionKey) (.invalidSessionKey newSessionKey)
  let s := { s with sessionKeys := Function.update s.sessionKeys account keys }
  let oldSessionKeyId := s.sessionKeyIdOf E.keccak account oldSessionKey
  let s := s.updateSessionKeyId E.keccak account oldSessionKey 0
  pure (s.updateSessionKeyId E.keccak account newSessionKey oldSessionKeyId)

/-- A key to add at installation: address, tag and updates. -/
def addEntry (s : State W S) (entry : Address × Bytes32 × List Bytes) :
    Except Revert (State W S) :=
  addSessionKey E timestamp account s entry.1 entry.2.1 entry.2.2

def onInstall (data : Bytes) : Except Revert (State W S) := do
  require (E.set.isEmpty (s.sessionKeys account) = true) .alreadyInitialized
  let (sessionKeysToAdd, tags, permissionUpdates) ← orRevert (decodeInstall data) .badArguments
  require (¬ (sessionKeysToAdd.length ≠ tags.length
    ∨ sessionKeysToAdd.length ≠ permissionUpdates.length)) .lengthMismatch
  (sessionKeysToAdd.zip (tags.zip permissionUpdates)).foldlM (addEntry E timestamp account) s

/-- The counter of key ids is kept. -/
def onUninstall : State W S :=
  let s := (E.set.getAll (s.sessionKeys account)).foldl
    (fun s sessionKey => s.updateSessionKeyId E.keccak account sessionKey 0) s
  let keys := E.set.clear (s.sessionKeys account)
  { s with sessionKeys := Function.update s.sessionKeys account keys }

/-! ### Execution -/

/-- The limit of the token a call goes to, if it has one. -/
def meterToken (sessionKey : Address) (keyId : Bytes32) (s : State W S) (call : Call) :
    Except Revert (State W S) :=
  let d := s.contractDataOf E.keccak account keyId call.target
  if d.isERC20WithSpendLimit then do
    let (ok, b) ← orRevert
      (runtimeUpdateSpendLimitUsage timestamp (getTokenSpendAmount call.data) d.budget) .panic
    require (ok = true) (.erc20SpendLimitExceeded account sessionKey call.target)
    pure (s.setContractData E.keccak account keyId call.target (d.withBudget b))
  else pure s

/-- A turn of the loop over the calls, with the native tokens so far. -/
def meterCall (sessionKey : Address) (keyId : Bytes32) (acc : ℕ × State W S) (call : Call) :
    Except Revert (ℕ × State W S) := do
  let newNativeTokenUsage ← orRevert (checkedAdd acc.1 call.value.toNat) .panic
  let s ← meterToken E timestamp account sessionKey keyId acc.2 call
  pure (newNativeTokenUsage, s)

/-- The native token limit of a key, unless it is bypassed. -/
def meterNative (sessionKey : Address) (newNativeTokenUsage : ℕ) (d : SessionKeyData) :
    Except Revert SessionKeyData :=
  if d.nativeTokenSpendLimitBypassed then pure d
  else do
    let (ok, b) ← orRevert (runtimeUpdateSpendLimitUsage timestamp
      (BitVec.ofNat 256 newNativeTokenUsage) d.nativeBudget) .panic
    require (ok = true) (.nativeTokenSpendLimitExceeded account sessionKey)
    pure (d.withNativeBudget b)

/-- `_updateLimitsPreExec`, which is called with `account = msg.sender`. -/
def updateLimitsPreExec (calls : List Call) (sessionKey : Address) :
    Except Revert (State W S) := do
  let keyId := s.sessionKeyIdOf E.keccak account sessionKey
  let (newNativeTokenUsage, s) ←
    calls.foldlM (meterCall E timestamp account sessionKey keyId) (0, s)
  let d ← meterNative timestamp account sessionKey newNativeTokenUsage
    (s.sessionKeyDataOf E.keccak account keyId)
  pure (s.setKeyData E.keccak account keyId (d.finishGasReset timestamp))

/-- `callsReturn` is whether every `executeFromPluginExternal` returns. -/
def executeWithSessionKey (calls : List Call) (sessionKey : Address) (callsReturn : Bool) :
    Except Revert (State W S) := do
  let s ← updateLimitsPreExec E timestamp account s calls sessionKey
  require (callsReturn = true) .executeFromPluginExternal
  pure s

/-! ### Validation -/

def userOpValidationFunction (functionId : Uint8) (userOp : PackedUserOperation)
    (userOpHash : Bytes32) : Except Revert (Uint256 × State W S) :=
  if functionId = 0 then do
    let (calls, sessionKey) ← orRevert (decodeExecute userOp.callData) .badArguments
    let recoveredSig ← orRevert (E.tryRecover userOpHash userOp.signature)
      (.invalidSignature sessionKey)
    require (E.set.contains (s.sessionKeys account) sessionKey = true) .permissionsCheckFailed
    let (validation, s) ← checkUserOpPermissions E.keccak E.lib s account userOp calls sessionKey
    require (validation.setWidth 160 = (0 : BitVec 160)) .permissionsCheckFailed
    pure (validation ||| (if sessionKey = recoveredSig then 0 else 1), s)
  else throw (.notImplemented functionId)

end

/-! ### Calls -/

inductive Action
  | onInstall (data : Bytes)
  | onUninstall
  | addSessionKey (sessionKey : Address) (tag : Bytes32) (permissionUpdates : List Bytes)
  | removeSessionKey (sessionKey : Address) (predecessor : Bytes32)
  | rotateSessionKey (oldSessionKey : Address) (predecessor : Bytes32) (newSessionKey : Address)
  | updateKeyPermissions (sessionKey : Address) (updates : List Bytes)
  | userOpValidationFunction (functionId : Uint8) (userOp : PackedUserOperation)
      (userOpHash : Bytes32)
  | executeWithSessionKey (calls : List Call) (sessionKey : Address) (callsReturn : Bool)
  | resetSessionKeyGasLimitTimestamp (account sessionKey : Address)

/-- A call of the plugin. -/
structure Tx where
  sender : Address
  timestamp : Uint256
  action : Action

/-- The account a call is about: the caller, but for the public reset. -/
def Tx.account (tx : Tx) : Address :=
  match tx.action with
  | .resetSessionKeyGasLimitTimestamp account _ => account
  | _ => tx.sender

section

variable {W S : Type} [DecidableEq W] (E : Env W S) (s : State W S)

def exec (tx : Tx) : Except Revert (State W S) :=
  match tx.action with
  | .onInstall data => onInstall E tx.timestamp tx.sender s data
  | .onUninstall => pure (onUninstall E tx.sender s)
  | .addSessionKey sessionKey tag permissionUpdates =>
    addSessionKey E tx.timestamp tx.sender s sessionKey tag permissionUpdates
  | .removeSessionKey sessionKey predecessor =>
    removeSessionKey E tx.sender s sessionKey predecessor
  | .rotateSessionKey oldSessionKey predecessor newSessionKey =>
    rotateSessionKey E tx.sender s oldSessionKey predecessor newSessionKey
  | .updateKeyPermissions sessionKey updates =>
    updateKeyPermissions E tx.timestamp tx.sender s sessionKey updates
  | .userOpValidationFunction functionId userOp userOpHash =>
    (userOpValidationFunction E tx.sender s functionId userOp userOpHash).map Prod.snd
  | .executeWithSessionKey calls sessionKey callsReturn =>
    executeWithSessionKey E tx.timestamp tx.sender s calls sessionKey callsReturn
  | .resetSessionKeyGasLimitTimestamp account sessionKey =>
    resetSessionKeyGasLimitTimestamp E tx.timestamp account s sessionKey

def step (tx : Tx) : Option (State W S) := (exec E s tx).toOption

end

end Bufi.Session
