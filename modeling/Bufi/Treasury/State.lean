import Bufi.Evm.Checks
import Bufi.Evm.Mapping
import Bufi.Evm.Run
import Bufi.Treasury.Signatures

/-!
# The treasury as a state machine

`GatewayTreasury.sol` less its ERC-1271 half: the storage, the self-administered
setters, the admin queue and the two emergency stops.  A function that can
revert is an `Except Revert` with the contract's own errors.

An admin call is bytes.  `decodeAdminCall` reads its selector and arguments as
the dispatcher does, and `executeAdmin` runs it with the treasury itself as the
caller; this is the only way a setter is ever reached with that caller, so a
transaction carries the fact that its own sender is somebody else.

The external calls come last in every function that makes one, after all writes
to storage.  A call that re-enters the treasury is therefore a later call of the
same run, and a run is a flat list of transactions.
-/

namespace Bufi.Treasury

open Bufi.Evm Bufi.Gateway

/-! ### Storage -/

structure TokenInfo where
  eip712Name : Bytes
  eip712Version : Bytes
  deriving DecidableEq

structure AdminOp (W : Type) where
  callHash : W
  eta : Uint256
  executed : Bool
  cancelled : Bool
  epoch : Uint256
  deriving DecidableEq

/-- The storage of a treasury; `owners`, `weights` and `thresholdWeight` are the
inherited fields. -/
structure State (W : Type) extends Signers where
  recipientCount : ℕ
  allowedRecipients : Bytes32 → Bool
  allowedDestinationDomains : Uint32 → Bool
  allowedTokens : Address → TokenInfo
  allowedDestinationTokens : Bytes32 → Bool
  allowedDestinationCallers : Bytes32 → Bool
  destinationMinters : Uint32 → Bytes32
  paused : Bool
  revokedIntents : W → Bool
  perIntentCap : Uint256
  maxFeeCap : Uint256
  adminTimelock : Uint32
  maxExpiryBlocks : Uint256
  adminOps : Uint256 → AdminOp W
  usedNonces : Uint256 → Bool
  adminEpoch : Uint256

/-- What is fixed at deployment; `chainid` is the chain it was deployed on. -/
structure Deployment where
  treasury : Address
  gatewayWallet : Address
  localDomain : Uint32
  chainid : Uint256
  deriving DecidableEq

/-- The custom errors, the `onlySelf` message, and the reverts without data of
the contract's own: a panic, arguments that do not decode, a failed callee. -/
inductive Revert
  | invalidOwnerSet
  | invalidThreshold
  | invalidWeights
  | duplicateOwner
  | invalidGatewayWallet
  | emptyRecipientAllowlist
  | invalidCap
  | nonceAlreadyUsed
  | timelockNotExpired
  | opNotFound
  | opAlreadyExecuted
  | opAlreadyCancelled
  | invalidCallTarget
  | transferFailed
  | zeroBalance
  | tokenNotAllowed
  | wouldEmptyAllowlist
  | selfCallFailed (reason : Revert)
  | quorumNotReached
  | recipientNotAllowed
  | zeroRecipient
  | invalidTokenConfig
  | invalidDestinationConfig
  | signatureExpired
  | opExpired
  | opStale
  | onlySelf
  | panic
  | badArguments
  | callee
  deriving DecidableEq

/-- The answers of the tokens and of the Gateway wallet during a transaction;
`none` is a call that reverts. -/
structure Callees where
  balanceOf : Address → Option Uint256
  approve : Address → Address → Uint256 → Option Bool
  transfer : Address → Address → Uint256 → Option Bool
  deposit : Address → Uint256 → Option Unit
  initiateWithdrawal : Address → Uint256 → Option Unit
  withdraw : Address → Option Unit

/-! ### Self-administered setters -/

section Setters

variable {W : Type} (d : Deployment) (s : State W)

/-- The checks on one entry of an owner list; `seen` are the entries before it. -/
def checkOwner (treasury : Address) (seen : List Address) (owner : Address) (weight : Uint16) :
    Except Revert Unit := do
  require (owner ≠ 0 ∧ owner ≠ treasury) .invalidOwnerSet
  require (1 ≤ weight) .invalidWeights
  require (owner ∉ seen) .duplicateOwner

/-- The first loop of `setOwners`: every entry is checked and the weights are
summed. -/
def sumWeights (treasury : Address) : List Address → List (Address × Uint16) → ℕ →
    Except Revert ℕ
  | _, [], total => pure total
  | seen, (owner, weight) :: rest, total => do
    checkOwner treasury seen owner weight
    sumWeights treasury (seen ++ [owner]) rest (total + weight.toNat)

def checkOwnerCount (owners : List Address) (weights : List Uint16) : Except Revert Unit :=
  require (1 ≤ owners.length ∧ owners.length ≤ 20 ∧ owners.length = weights.length)
    .invalidOwnerSet

/-- `adminEpoch++`, checked. -/
def bumpEpoch (epoch : Uint256) : Except Revert Uint256 :=
  if epoch.toNat + 1 < 2 ^ 256 then pure (epoch + 1) else throw .panic

def setOwners (newOwners : List Address) (newWeights : List Uint16) (newThreshold : Uint256) :
    Except Revert (State W) := do
  checkOwnerCount newOwners newWeights
  let totalWeight ← sumWeights d.treasury [] (newOwners.zip newWeights) 0
  require (1 ≤ newThreshold.toNat ∧ newThreshold.toNat ≤ totalWeight) .invalidThreshold
  let cleared := setAll s.weights (s.owners.map (·, 0))
  let epoch ← bumpEpoch s.adminEpoch
  pure { s with
    owners := newOwners
    weights := setAll cleared (newOwners.zip newWeights)
    thresholdWeight := newThreshold
    adminEpoch := epoch }

def setAllowedRecipient (recipient : Bytes32) (allowed : Bool) : Except Revert (State W) := do
  if s.allowedRecipients recipient = allowed then pure s
  else if allowed then do
    let count ← orRevert (checkedAdd s.recipientCount 1) .panic
    pure { s with
      recipientCount := count
      allowedRecipients := Function.update s.allowedRecipients recipient true }
  else do
    require (1 < s.recipientCount) .wouldEmptyAllowlist
    pure { s with
      recipientCount := s.recipientCount - 1
      allowedRecipients := Function.update s.allowedRecipients recipient false }

def setAllowedDestinationDomain (domain : Uint32) (allowed : Bool) : State W :=
  { s with allowedDestinationDomains := Function.update s.allowedDestinationDomains domain allowed }

def setAllowedToken (token : Address) (name version : Bytes) (allowed : Bool) :
    Except Revert (State W) := do
  if allowed then do
    require (token ≠ 0 ∧ name.length ≠ 0) .invalidTokenConfig
    pure { s with allowedTokens := Function.update s.allowedTokens token ⟨name, version⟩ }
  else pure { s with allowedTokens := Function.update s.allowedTokens token ⟨[], []⟩ }

def setDestinationMinter (domain : Uint32) (minter : Bytes32) : State W :=
  { s with destinationMinters := Function.update s.destinationMinters domain minter }

def setAllowedDestinationCaller (caller : Bytes32) (allowed : Bool) : State W :=
  { s with allowedDestinationCallers := Function.update s.allowedDestinationCallers caller allowed }

def setPaused (paused : Bool) : State W := { s with paused := paused }

def setAllowedDestinationToken (tok : Bytes32) (allowed : Bool) : State W :=
  { s with allowedDestinationTokens := Function.update s.allowedDestinationTokens tok allowed }

def setPerIntentCap (cap : Uint256) : Except Revert (State W) := do
  require (cap ≠ 0) .invalidCap
  pure { s with perIntentCap := cap }

def setMaxFeeCap (cap : Uint256) : State W := { s with maxFeeCap := cap }

def setMaxExpiryBlocks (blocks : Uint256) : Except Revert (State W) := do
  require (blocks ≠ 0) .invalidCap
  pure { s with maxExpiryBlocks := blocks }

def setAdminTimelock (secs : Uint32) : Except Revert (State W) := do
  let epoch ← bumpEpoch s.adminEpoch
  pure { s with adminTimelock := secs, adminEpoch := epoch }

variable (c : Callees)

def gatewayInitiateWithdrawal (token : Address) (value : Uint256) :
    Except Revert (State W) := do
  require ((s.allowedTokens token).eip712Name.length ≠ 0) .tokenNotAllowed
  orRevert (c.initiateWithdrawal token value) .callee
  pure s

def gatewayWithdraw (token : Address) : Except Revert (State W) := do
  require ((s.allowedTokens token).eip712Name.length ≠ 0) .tokenNotAllowed
  orRevert (c.withdraw token) .callee
  pure s

def transferToRecipient (token : Address) (recipient : Bytes32) (amount : Uint256) :
    Except Revert (State W) := do
  require (s.allowedRecipients recipient = true) .recipientNotAllowed
  require (recipient >>> 160 = 0) .recipientNotAllowed
  require (toAddress recipient ≠ 0) .zeroRecipient
  let ok ← orRevert (c.transfer token (toAddress recipient) amount) .callee
  require (ok = true) .transferFailed
  pure s

end Setters

/-! ### Admin calls -/

/-- A self-administered setter with its arguments. -/
inductive AdminCall
  | setOwners (owners : List Address) (weights : List Uint16) (threshold : Uint256)
  | setAllowedRecipient (recipient : Bytes32) (allowed : Bool)
  | setAllowedDestinationDomain (domain : Uint32) (allowed : Bool)
  | setAllowedToken (token : Address) (name version : Bytes) (allowed : Bool)
  | setAllowedDestinationToken (tok : Bytes32) (allowed : Bool)
  | setPerIntentCap (cap : Uint256)
  | setMaxFeeCap (cap : Uint256)
  | setAdminTimelock (secs : Uint32)
  | gatewayInitiateWithdrawal (token : Address) (value : Uint256)
  | gatewayWithdraw (token : Address)
  | transferToRecipient (token : Address) (recipient : Bytes32) (amount : Uint256)
  | setMaxExpiryBlocks (blocks : Uint256)
  | setDestinationMinter (domain : Uint32) (minter : Bytes32)
  | setAllowedDestinationCaller (caller : Bytes32) (allowed : Bool)
  | setPaused (paused : Bool)
  deriving DecidableEq

def selSetOwners : Bytes4 := 0xd966a628
def selSetRecipient : Bytes4 := 0x210bd892
def selSetDomain : Bytes4 := 0x0d6669e0
def selSetToken : Bytes4 := 0x36dec476
def selSetDestToken : Bytes4 := 0xd93b014e
def selSetPerIntentCap : Bytes4 := 0xfa09148f
def selSetMaxFeeCap : Bytes4 := 0xa28e450d
def selSetTimelock : Bytes4 := 0xe802650f
def selGwInitiateWithdrawal : Bytes4 := 0x4ad0c0fa
def selGwWithdraw : Bytes4 := 0xca123e0d
def selSetMaxExpiry : Bytes4 := 0xb19106c9
def selTransferRecipient : Bytes4 := 0xefae814f
def selSetDestMinter : Bytes4 := 0xdc6635af
def selSetDestCaller : Bytes4 := 0xb7848db5
def selSetPaused : Bytes4 := 0x16c38b3c

def isAllowedAdminSelector (sel : Bytes4) : Bool :=
  sel == selSetOwners || sel == selSetRecipient || sel == selSetDomain || sel == selSetToken
    || sel == selSetDestToken || sel == selSetPerIntentCap || sel == selSetMaxFeeCap
    || sel == selSetTimelock || sel == selGwInitiateWithdrawal || sel == selGwWithdraw
    || sel == selTransferRecipient || sel == selSetMaxExpiry || sel == selSetDestMinter
    || sel == selSetDestCaller || sel == selSetPaused

/-- The first four bytes of a call. -/
def selectorOf (call : Bytes) : Bytes4 := BitVec.ofNat 32 (beNat (call.take 4))

/-- The setter a call reaches and its arguments, as the dispatcher reads them. -/
def decodeAdminCall (call : Bytes) : Option AdminCall :=
  let sel := selectorOf call
  let a := call.drop 4
  if call.length < 4 then none
  else if sel = selSetOwners then do
    let owners ← Abi.array Abi.address a (← Abi.tail a 0 0)
    let weights ← Abi.array (Abi.uint 16) a (← Abi.tail a 0 32)
    return .setOwners owners weights (← Abi.word a 64)
  else if sel = selSetRecipient then return .setAllowedRecipient (← Abi.word a 0) (← Abi.bool a 32)
  else if sel = selSetDomain then
    return .setAllowedDestinationDomain (← Abi.uint 32 a 0) (← Abi.bool a 32)
  else if sel = selSetToken then do
    let token ← Abi.address a 0
    let name ← Abi.bytes a (← Abi.tail a 0 32)
    let version ← Abi.bytes a (← Abi.tail a 0 64)
    return .setAllowedToken token name.data version.data (← Abi.bool a 96)
  else if sel = selSetDestToken then
    return .setAllowedDestinationToken (← Abi.word a 0) (← Abi.bool a 32)
  else if sel = selSetPerIntentCap then return .setPerIntentCap (← Abi.word a 0)
  else if sel = selSetMaxFeeCap then return .setMaxFeeCap (← Abi.word a 0)
  else if sel = selSetTimelock then return .setAdminTimelock (← Abi.uint 32 a 0)
  else if sel = selGwInitiateWithdrawal then
    return .gatewayInitiateWithdrawal (← Abi.address a 0) (← Abi.word a 32)
  else if sel = selGwWithdraw then return .gatewayWithdraw (← Abi.address a 0)
  else if sel = selTransferRecipient then
    return .transferToRecipient (← Abi.address a 0) (← Abi.word a 32) (← Abi.word a 64)
  else if sel = selSetMaxExpiry then return .setMaxExpiryBlocks (← Abi.word a 0)
  else if sel = selSetDestMinter then
    return .setDestinationMinter (← Abi.uint 32 a 0) (← Abi.word a 32)
  else if sel = selSetDestCaller then
    return .setAllowedDestinationCaller (← Abi.word a 0) (← Abi.bool a 32)
  else if sel = selSetPaused then return .setPaused (← Abi.bool a 0)
  else none

section Dispatch

variable {W : Type} (d : Deployment) (c : Callees) (s : State W)

def runAdmin : AdminCall → Except Revert (State W)
  | .setOwners owners weights threshold => setOwners d s owners weights threshold
  | .setAllowedRecipient recipient allowed => setAllowedRecipient s recipient allowed
  | .setAllowedDestinationDomain domain allowed =>
    pure (setAllowedDestinationDomain s domain allowed)
  | .setAllowedToken token name version allowed => setAllowedToken s token name version allowed
  | .setAllowedDestinationToken tok allowed => pure (setAllowedDestinationToken s tok allowed)
  | .setPerIntentCap cap => setPerIntentCap s cap
  | .setMaxFeeCap cap => pure (setMaxFeeCap s cap)
  | .setAdminTimelock secs => setAdminTimelock s secs
  | .gatewayInitiateWithdrawal token value => gatewayInitiateWithdrawal s c token value
  | .gatewayWithdraw token => gatewayWithdraw s c token
  | .transferToRecipient token recipient amount => transferToRecipient s c token recipient amount
  | .setMaxExpiryBlocks blocks => setMaxExpiryBlocks s blocks
  | .setDestinationMinter domain minter => pure (setDestinationMinter s domain minter)
  | .setAllowedDestinationCaller caller allowed =>
    pure (setAllowedDestinationCaller s caller allowed)
  | .setPaused paused => pure (setPaused s paused)

/-- A call of a setter by `sender`: the arguments are decoded, then `onlySelf`. -/
def dispatch (sender : Address) (call : Bytes) : Except Revert (State W) := do
  let admin ← orRevert (decodeAdminCall call) .badArguments
  require (sender = d.treasury) .onlySelf
  runAdmin d c s admin

end Dispatch

end Bufi.Treasury
