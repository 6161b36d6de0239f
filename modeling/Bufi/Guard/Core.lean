import Bufi.Evm.Checks
import Bufi.Evm.Mapping
import Bufi.Evm.Run
import Bufi.Gateway.Rules

/-!
# The intent guard

`GatewayIntentGuardCore.sol`: the Gateway policy as a module that many accounts
share.  The sets of an account are never cleared; they are kept under a
namespace, the hash of the account and of an epoch that every uninstall raises.

`_validateAddressBook` is up to the packaging, and `getAllowedRecipients` is a
call to the address book; both are answers of `Env`.
-/

namespace Bufi.Guard

open Bufi.Evm Bufi.Gateway

/-! ### Storage -/

structure Limits where
  gatewayWallet : Address
  perIntentCap : Uint256
  maxFeeCap : Uint256
  maxExpiryBlocks : Uint256
  addressBook : Address
  sourceDomain : Uint32
  deriving DecidableEq

/-- `delete _limits[account]`. -/
def Limits.deleted : Limits := ⟨0, 0, 0, 0, 0, 0⟩

structure TokenInfo where
  name : Bytes
  version : Bytes
  deriving DecidableEq

structure State (W : Type) where
  limits : Address → Limits
  epoch : Address → Uint256
  recipients : W → Bytes32 → Bool
  recipientCount : W → ℕ
  domains : W → Uint32 → Bool
  tokens : W → Address → TokenInfo
  destTokens : W → Bytes32 → Bool
  minters : W → Uint32 → Bytes32
  callers : W → Bytes32 → Bool

/-- The storage of a new guard. -/
def State.initial {W : Type} : State W where
  limits _ := .deleted
  epoch _ := 0
  recipients _ _ := false
  recipientCount _ := 0
  domains _ _ := false
  tokens _ _ := ⟨[], []⟩
  destTokens _ _ := false
  minters _ _ := 0
  callers _ _ := false

structure GatewayGuardInit where
  gatewayWallet : Address
  perIntentCap : Uint256
  maxFeeCap : Uint256
  maxExpiryBlocks : Uint256
  recipients : List Bytes32
  destinationDomains : List Uint32
  tokens : List Address
  tokenNames : List Bytes
  tokenVersions : List Bytes
  destinationTokens : List Bytes32
  sourceDomain : Uint32
  destinationMinters : List Bytes32
  destinationCallers : List Bytes32
  addressBook : Address

inductive Revert (W : Type)
  | guardNotInstalled (account : Address)
  | guardAlreadyInstalled (account : Address)
  | invalidGatewayWallet
  | invalidLimits
  | invalidTokenConfig
  | invalidDestinationConfig
  | emptyRecipientAllowlist
  | invalidAddressBook (addressBook : Address)
  | addressBookNotInstalled (account addressBook : Address)
  | unknownIntentKind (kind : Uint8)
  | digestMismatch (expected derived : W)
  | intentShapeRejected
  | sourceTokenNotAllowed (token : Address)
  | destinationTokenNotAllowed (token : Bytes32)
  | destinationDomainNotAllowed (domain : Uint32)
  | recipientNotAllowed (recipient : Bytes32)
  | destinationCallerNotAllowed (caller : Bytes32)
  | destinationContractNotAllowed (destinationContract : Bytes32)
  | authorizationRejected
  | panic
  | badArguments
  | callee

/-- The answers of other contracts: whether an address book is valid for an
account, and the recipients it holds (`none` is a call that fails). -/
structure Env (W : Type) where
  validateAddressBook : Address → Address → Except (Revert W) Unit
  getAllowedRecipients : Address → Address → Option (List Address)

/-! ### Lifecycle and setters -/

section Writes

variable {W : Type} [DecidableEq W] (K : Keccak W) (env : Env W) (s : State W) (account : Address)

/-- `keccak256(abi.encode(account, epoch))`. -/
def nsOf {W : Type} (K : Keccak W) (account : Address) (epoch : Uint256) : W :=
  K.hashWords [K.addr account, K.word epoch]

def State.ns {W : Type} (K : Keccak W) (s : State W) (account : Address) : W :=
  nsOf K account (s.epoch account)

def GatewayGuardInit.limits (init : GatewayGuardInit) : Limits where
  gatewayWallet := init.gatewayWallet
  perIntentCap := init.perIntentCap
  maxFeeCap := init.maxFeeCap
  maxExpiryBlocks := init.maxExpiryBlocks
  addressBook := init.addressBook
  sourceDomain := init.sourceDomain

/-- The tokens of an init with their names and versions. -/
def GatewayGuardInit.tokenEntries (init : GatewayGuardInit) : List (Address × TokenInfo) :=
  init.tokens.zip ((init.tokenNames.zip init.tokenVersions).map (fun t => ⟨t.1, t.2⟩))

/-- `if (addressBook != address(0)) _validateAddressBook(account, addressBook);` -/
def checkAddressBook {W : Type} (env : Env W) (account addressBook : Address) :
    Except (Revert W) Unit :=
  if addressBook ≠ 0 then env.validateAddressBook account addressBook else pure ()

def install (init : GatewayGuardInit) : Except (Revert W) (State W) := do
  require ((s.limits account).gatewayWallet = 0) (.guardAlreadyInstalled account)
  require (init.gatewayWallet ≠ 0) .invalidGatewayWallet
  require (init.perIntentCap ≠ 0 ∧ init.maxExpiryBlocks ≠ 0) .invalidLimits
  require (init.tokens.length = init.tokenNames.length
    ∧ init.tokens.length = init.tokenVersions.length) .invalidTokenConfig
  require (init.destinationMinters.length = init.destinationDomains.length)
    .invalidDestinationConfig
  checkAddressBook env account init.addressBook
  let ns := s.ns K account
  let (count, recipients) :=
    init.recipients.foldl insertCounted (s.recipientCount ns, s.recipients ns)
  require (¬ (count = 0 ∧ init.addressBook = 0)) .emptyRecipientAllowlist
  require (0 ∉ init.destinationMinters) .invalidDestinationConfig
  require (∀ t ∈ init.tokenEntries, t.1 ≠ 0 ∧ t.2.name.length ≠ 0) .invalidTokenConfig
  pure { s with
    limits := Function.update s.limits account init.limits
    recipients := Function.update s.recipients ns recipients
    recipientCount := Function.update s.recipientCount ns count
    domains := Function.update s.domains ns (insertAll (s.domains ns) init.destinationDomains)
    minters := Function.update s.minters ns
      (setAll (s.minters ns) (init.destinationDomains.zip init.destinationMinters))
    callers := Function.update s.callers ns (insertAll (s.callers ns) init.destinationCallers)
    tokens := Function.update s.tokens ns (setAll (s.tokens ns) init.tokenEntries)
    destTokens := Function.update s.destTokens ns
      (insertAll (s.destTokens ns) init.destinationTokens) }

def uninstall {W : Type} (s : State W) (account : Address) : Except (Revert W) (State W) := do
  require ((s.limits account).gatewayWallet ≠ 0) (.guardNotInstalled account)
  require ((s.epoch account).toNat + 1 < 2 ^ 256) .panic
  pure { s with
    limits := Function.update s.limits account .deleted
    epoch := Function.update s.epoch account (s.epoch account + 1) }

/-- `onlyInstalled`, with `msg.sender = account`. -/
def onlyInstalled {W : Type} (s : State W) (account : Address) : Except (Revert W) Unit :=
  require ((s.limits account).gatewayWallet ≠ 0) (.guardNotInstalled account)

/-- `m[ns][k] = v`. -/
def set₂ {K' V : Type} [DecidableEq K'] (m : W → K' → V) (ns : W) (k : K') (v : V) : W → K' → V :=
  Function.update m ns (Function.update (m ns) k v)

def setGatewayRecipient (recipient : Bytes32) (allowed : Bool) : Except (Revert W) (State W) := do
  onlyInstalled s account
  let ns := s.ns K account
  if s.recipients ns recipient = allowed then pure s
  else if allowed then do
    let count ← orRevert (checkedAdd (s.recipientCount ns) 1) .panic
    pure { s with
      recipientCount := Function.update s.recipientCount ns count
      recipients := set₂ s.recipients ns recipient true }
  else do
    require (¬ (s.recipientCount ns ≤ 1 ∧ (s.limits account).addressBook = 0))
      .emptyRecipientAllowlist
    let count ← orRevert (checkedSub (s.recipientCount ns) 1) .panic
    pure { s with
      recipientCount := Function.update s.recipientCount ns count
      recipients := set₂ s.recipients ns recipient false }

def setGatewayDestinationDomain (domain : Uint32) (allowed : Bool) :
    Except (Revert W) (State W) := do
  onlyInstalled s account
  pure { s with domains := set₂ s.domains (s.ns K account) domain allowed }

def setGatewayToken (token : Address) (name version : Bytes) (allowed : Bool) :
    Except (Revert W) (State W) := do
  onlyInstalled s account
  if allowed then do
    require (token ≠ 0 ∧ name.length ≠ 0) .invalidTokenConfig
    pure { s with tokens := set₂ s.tokens (s.ns K account) token ⟨name, version⟩ }
  else pure { s with tokens := set₂ s.tokens (s.ns K account) token ⟨[], []⟩ }

def setGatewayDestinationToken (token : Bytes32) (allowed : Bool) :
    Except (Revert W) (State W) := do
  onlyInstalled s account
  pure { s with destTokens := set₂ s.destTokens (s.ns K account) token allowed }

def setGatewayLimits {W : Type} (s : State W) (account : Address)
    (perIntentCap maxFeeCap maxExpiryBlocks : Uint256) : Except (Revert W) (State W) := do
  onlyInstalled s account
  require (perIntentCap ≠ 0 ∧ maxExpiryBlocks ≠ 0) .invalidLimits
  let l := { s.limits account with perIntentCap, maxFeeCap, maxExpiryBlocks }
  pure { s with limits := Function.update s.limits account l }

def setGatewayDestinationMinter (domain : Uint32) (minter : Bytes32) :
    Except (Revert W) (State W) := do
  onlyInstalled s account
  pure { s with minters := set₂ s.minters (s.ns K account) domain minter }

def setGatewayDestinationCaller (caller : Bytes32) (allowed : Bool) :
    Except (Revert W) (State W) := do
  onlyInstalled s account
  pure { s with callers := set₂ s.callers (s.ns K account) caller allowed }

end Writes

/-! ### Policy -/

section Policy

variable {W : Type} [DecidableEq W] (K : Keccak W) (env : Env W) (block : Block) (s : State W)
  (account : Address)

def Limits.intentLimits (l : Limits) (account : Address) : IntentLimits where
  gatewayWallet := l.gatewayWallet
  sourceDomain := l.sourceDomain
  depositor := account
  maxExpiryBlocks := l.maxExpiryBlocks
  perIntentCap := l.perIntentCap
  maxFeeCap := l.maxFeeCap

/-- `_recipientAllowed`; the only way it reverts is a failing address book. -/
def recipientAllowed {W : Type} (env : Env W) (s : State W) (account : Address) (l : Limits)
    (ns : W) (domain : Uint32) (recipient : Bytes32) : Except (Revert W) Bool := do
  if !matchesDomainShape domain recipient then pure false
  else if s.recipients ns recipient then pure true
  else if l.addressBook = 0 ∨ !isEvmDomain domain then pure false
  else if toAddress recipient = 0 then pure false
  else do
    let book ← orRevert (env.getAllowedRecipients l.addressBook account) .callee
    pure (decide (toAddress recipient ∈ book))

def checkBurnIntent (l : Limits) (ns : W) (hash : W) (payload : Bytes) :
    Except (Revert W) Unit := do
  let intent ← orRevert (decodeBurnIntent payload) .badArguments
  let derived := burnIntentDigest K intent
  require (derived = hash) (.digestMismatch hash derived)
  let (ok, sourceToken) := checkIntentShape block.number intent (l.intentLimits account)
  require (ok = true) .intentShapeRejected
  require ((s.tokens ns sourceToken).name.length ≠ 0) (.sourceTokenNotAllowed sourceToken)
  let spec := intent.spec
  let domain := spec.destinationDomain
  require (s.destTokens ns spec.destinationToken = true
    ∧ matchesDomainShape domain spec.destinationToken = true)
    (.destinationTokenNotAllowed spec.destinationToken)
  require (s.domains ns domain = true) (.destinationDomainNotAllowed domain)
  let allowed ← recipientAllowed env s account l ns domain spec.destinationRecipient
  require (allowed = true) (.recipientNotAllowed spec.destinationRecipient)
  let caller := spec.destinationCaller
  require (¬ (caller ≠ 0 ∧ (s.callers ns caller = false ∨ matchesDomainShape domain caller = false)))
    (.destinationCallerNotAllowed caller)
  let minter := s.minters ns domain
  require (¬ (minter = 0 ∨ spec.destinationContract ≠ minter))
    (.destinationContractNotAllowed spec.destinationContract)

def checkReceiveWithAuthorization (l : Limits) (ns : W) (caller : Address) (hash : W)
    (payload : Bytes) : Except (Revert W) Unit := do
  let ti := s.tokens ns caller
  require (ti.name.length ≠ 0) .authorizationRejected
  let auth ← orRevert (decodeReceiveAuth payload) .badArguments
  let derived := receiveWithAuthorizationDigest K ti.name ti.version block.chainid caller auth
  require (derived = hash) (.digestMismatch hash derived)
  require (¬ (auth.fromAddr ≠ account ∨ auth.toAddr ≠ l.gatewayWallet)) .authorizationRejected

/-- `checkIntent`: `ok` is a call that does not revert. -/
def checkIntent (caller : Address) (hash : W) (kind : Uint8) (payload : Bytes) :
    Except (Revert W) Unit := do
  let l := s.limits account
  require (l.gatewayWallet ≠ 0) (.guardNotInstalled account)
  let ns := s.ns K account
  if kind = 0 then checkBurnIntent K env block s account l ns hash payload
  else if kind = 1 then checkReceiveWithAuthorization K block s account l ns caller hash payload
  else throw (.unknownIntentKind kind)

end Policy

/-! ### Calls -/

inductive Action
  | onInstall (init : GatewayGuardInit)
  | onUninstall
  | setGatewayRecipient (recipient : Bytes32) (allowed : Bool)
  | setGatewayDestinationDomain (domain : Uint32) (allowed : Bool)
  | setGatewayToken (token : Address) (name version : Bytes) (allowed : Bool)
  | setGatewayDestinationToken (token : Bytes32) (allowed : Bool)
  | setGatewayLimits (perIntentCap maxFeeCap maxExpiryBlocks : Uint256)
  | setGatewayDestinationMinter (domain : Uint32) (minter : Bytes32)
  | setGatewayDestinationCaller (caller : Bytes32) (allowed : Bool)

/-- A call of the guard by an account. -/
structure Tx (W : Type) where
  account : Address
  env : Env W
  action : Action

section

variable {W : Type} [DecidableEq W] (K : Keccak W)

def exec (s : State W) (tx : Tx W) : Except (Revert W) (State W) :=
  match tx.action with
  | .onInstall init => install K tx.env s tx.account init
  | .onUninstall => uninstall s tx.account
  | .setGatewayRecipient recipient allowed => setGatewayRecipient K s tx.account recipient allowed
  | .setGatewayDestinationDomain domain allowed =>
    setGatewayDestinationDomain K s tx.account domain allowed
  | .setGatewayToken token name version allowed =>
    setGatewayToken K s tx.account token name version allowed
  | .setGatewayDestinationToken token allowed =>
    setGatewayDestinationToken K s tx.account token allowed
  | .setGatewayLimits perIntentCap maxFeeCap maxExpiryBlocks =>
    setGatewayLimits s tx.account perIntentCap maxFeeCap maxExpiryBlocks
  | .setGatewayDestinationMinter domain minter =>
    setGatewayDestinationMinter K s tx.account domain minter
  | .setGatewayDestinationCaller caller allowed =>
    setGatewayDestinationCaller K s tx.account caller allowed

def step (s : State W) (tx : Tx W) : Option (State W) := (exec K s tx).toOption

end

end Bufi.Guard
