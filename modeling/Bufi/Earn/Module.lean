import Bufi.Evm.Hash
import Bufi.Evm.Checks
import Bufi.Evm.Run

/-!
# The earn module

`BufiEarnModule` keeps sets of vaults.  A set is a list of entries, one vault for a token
on a chain, and it is stored under the hash of its encoding: the vaults in `config`, the
tokens of each chain in an array and a membership mapping, whose keys are a second hash
of the first one and the chain id.  An account adopts a set by its hash, and `autoEarn`
deposits a token of the account in the vault of the set.

A hash that an account adopts arrives as a word of calldata; here it is a value of the
type of the digests.
-/

namespace Bufi.Earn

open Bufi.Evm

inductive EarnError
  | tooManyTokens
  | emptyConfigList
  | moduleNotInitialized (account : Address)
  | moduleAlreadyInitialized (account : Address)
  | notAuthorized (caller : Address)
  | notOwner (caller : Address)
  | configNotFound (token : Address)
  | invalidConfigHash
  | invalidFunctionId (functionId : Uint8)
  | configNotSorted (index : ℕ)
  | zeroSharesMinted (vault : Address)
  | unexpectedAssetDelta (vault : Address) (expected actual : ℕ)
  | vaultAssetMismatch (vault expected actual : Address)
  | panic
  | reverted
  deriving DecidableEq

def MAX_TOKENS : ℕ := 100

structure ConfigInput where
  chainId : Uint256
  token : Address
  vault : Address
  deriving DecidableEq

structure ConfigWithToken where
  token : Address
  vault : Address
  deriving DecidableEq

/-- The storage of the module; the keys of `tokenList` and `tokenListed` are hashes of a
config hash and a chain id. -/
structure State (W : Type) where
  owner : Address
  authorizedRelayers : Address → Bool
  config : W → Uint256 → Address → Address
  tokenList : W → List Address
  tokenListed : W → Address → Bool
  accountConfig : Address → W

variable {W : Type} (K : Keccak W)

/-- After the constructor. -/
def State.initial (authorizedRelayer owner : Address) : State W where
  owner := owner
  authorizedRelayers := Function.update (fun _ => false) authorizedRelayer true
  config _ _ _ := 0
  tokenList _ := []
  tokenListed _ _ := false
  accountConfig _ := K.word 0

/-! ### Config -/

/-- The order of the entries: by chain, then by token. -/
def ConfigInput.Before (a b : ConfigInput) : Prop :=
  a.chainId < b.chainId ∨ a.chainId = b.chainId ∧ a.token < b.token

instance (a b : ConfigInput) : Decidable (a.Before b) :=
  inferInstanceAs (Decidable (_ ∨ _ ∧ _))

/-- The loop that compares each entry from the second on with the one before it. -/
def checkSorted : ℕ → List ConfigInput → Except EarnError Unit
  | i, a :: b :: rest => do
    require (a.Before b) (.configNotSorted i)
    checkSorted (i + 1) (b :: rest)
  | _, _ => pure ()

def ConfigInput.words (e : ConfigInput) : List W :=
  [K.word e.chainId, K.addr e.token, K.addr e.vault]

/-- `keccak256(abi.encode(newConfigs))`: the offset of the array, its length, and the
words of the entries. -/
def configHash (newConfigs : List ConfigInput) : W :=
  K.hashWords (K.word 32 :: K.word (.ofNat 256 newConfigs.length) ::
    newConfigs.flatMap (ConfigInput.words K))

/-- `keccak256(abi.encodePacked(configHash, chainId))` -/
def configHashChainId (hash : W) (chainId : Uint256) : W := K.hashWords [hash, K.word chainId]

def onlyOwner (s : State W) (sender : Address) : Except EarnError Unit :=
  require (sender = s.owner) (.notOwner sender)

variable [DecidableEq W]

/-- The token is listed where it is not listed yet. -/
def listToken (key : W) (token : Address) (s : State W) : Except EarnError (State W) :=
  if s.tokenListed key token then pure s
  else do
    require ((s.tokenList key).length < MAX_TOKENS) .tooManyTokens
    pure { s with
      tokenList := Function.update s.tokenList key (s.tokenList key ++ [token])
      tokenListed := Function.update s.tokenListed key
        (Function.update (s.tokenListed key) token true) }

/-- `config[hash][chainId][token] = vault` -/
def setVault (hash : W) (e : ConfigInput) (s : State W) : State W :=
  { s with
    config := Function.update s.config hash
      (Function.update (s.config hash) e.chainId
        (Function.update (s.config hash e.chainId) e.token e.vault)) }

/-- One turn of the loop of `setConfig`. -/
def setEntry (hash : W) (s : State W) (e : ConfigInput) : Except EarnError (State W) := do
  let s ← listToken (configHashChainId K hash e.chainId) e.token s
  pure (setVault hash e s)

def setConfig (sender : Address) (newConfigs : List ConfigInput) (s : State W) :
    Except EarnError (W × State W) := do
  onlyOwner s sender
  require (newConfigs ≠ []) .emptyConfigList
  checkSorted 1 newConfigs
  let hash := configHash K newConfigs
  let s ← newConfigs.foldlM (setEntry K hash) s
  pure (hash, s)

def addAuthorizedRelayer (sender newRelayer : Address) (s : State W) :
    Except EarnError (State W) := do
  onlyOwner s sender
  pure { s with authorizedRelayers := Function.update s.authorizedRelayers newRelayer true }

def removeAuthorizedRelayer (sender relayer : Address) (s : State W) :
    Except EarnError (State W) := do
  onlyOwner s sender
  pure { s with authorizedRelayers := Function.update s.authorizedRelayers relayer false }

/-! ### Accounts -/

def isInitialized (s : State W) (account : Address) : Bool := s.accountConfig account ≠ K.word 0

/-- The account adopts a set. -/
def adopt (account : Address) (hash : W) (s : State W) : State W :=
  { s with accountConfig := Function.update s.accountConfig account hash }

def changeConfigHash (account : Address) (newConfigHash : W) (s : State W) :
    Except EarnError (State W) := do
  require (isInitialized K s account = true) (.moduleNotInitialized account)
  require (newConfigHash ≠ K.word 0) .invalidConfigHash
  pure (adopt account newConfigHash s)

/-- `data` is what the install data decodes to, if it does. -/
def onInstall (account : Address) (data : Option W) (s : State W) :
    Except EarnError (State W) := do
  require (isInitialized K s account = false) (.moduleAlreadyInitialized account)
  let hash ← orRevert data .reverted
  require (hash ≠ K.word 0) .invalidConfigHash
  pure (adopt account hash s)

def onUninstall (account : Address) (s : State W) : State W := adopt account (K.word 0) s

/-! ### Reading -/

def getTokens (s : State W) (hash : W) (chainId : Uint256) : List Address :=
  s.tokenList (configHashChainId K hash chainId)

def getAllConfigs (s : State W) (chainId : Uint256) (account : Address) : List ConfigWithToken :=
  let hash := s.accountConfig account
  if hash = K.word 0 then []
  else (s.tokenList (configHashChainId K hash chainId)).map (fun token =>
    ⟨token, s.config hash chainId token⟩)

def runtimeValidationFunction (s : State W) (functionId : Uint8) (sender : Address) :
    Except EarnError Unit := do
  require (functionId = 0) (.invalidFunctionId functionId)
  require (s.authorizedRelayers sender = true ∨ sender = s.owner) (.notAuthorized sender)

/-- The vault that `autoEarn` resolves for a token of an account. -/
def resolveVault (s : State W) (chainId : Uint256) (account token : Address) :
    Except EarnError Address := do
  require (isInitialized K s account = true) (.moduleNotInitialized account)
  let vault := s.config (s.accountConfig account) chainId token
  require (vault ≠ 0) (.configNotFound token)
  pure vault

/-- What an account does for the module. -/
inductive PluginCall
  | approve (spender : Address) (amount : ℕ)
  | deposit (assets : ℕ) (receiver : Address)
  deriving DecidableEq

/-- The contracts around the module: tokens, vaults, and the calls that an account makes
for it. -/
structure Around (σ : Type) where
  asset : σ → Address → Except EarnError Address
  balanceOf : σ → Address → Address → Except EarnError ℕ
  executeFromPluginExternal : σ → Address → Address → PluginCall → Except EarnError σ

def autoEarn {σ : Type} (A : Around σ) (s : State W) (chainId : Uint256)
    (account token : Address) (amountToSave : ℕ) (x : σ) : Except EarnError σ := do
  let vault ← resolveVault K s chainId account token
  let asset ← A.asset x vault
  require (asset = token) (.vaultAssetMismatch vault token asset)
  let tokenBefore ← A.balanceOf x token account
  let sharesBefore ← A.balanceOf x vault account
  let x ← A.executeFromPluginExternal x account token (.approve vault amountToSave)
  let x ← A.executeFromPluginExternal x account vault (.deposit amountToSave account)
  let sharesAfter ← A.balanceOf x vault account
  let sharesMinted ← orRevert (checkedSub sharesAfter sharesBefore) .panic
  require (sharesMinted ≠ 0) (.zeroSharesMinted vault)
  let tokenAfter ← A.balanceOf x token account
  let tokenSpent ← orRevert (checkedSub tokenBefore tokenAfter) .panic
  require (tokenSpent = amountToSave) (.unexpectedAssetDelta vault amountToSave tokenSpent)
  pure x

/-! ### Calls -/

inductive Action (W : Type)
  | addAuthorizedRelayer (sender newRelayer : Address)
  | removeAuthorizedRelayer (sender relayer : Address)
  | setConfig (sender : Address) (newConfigs : List ConfigInput)
  | changeConfigHash (account : Address) (newConfigHash : W)
  | onInstall (account : Address) (data : Option W)
  | onUninstall (account : Address)

def act (s : State W) : Action W → Except EarnError (State W)
  | .addAuthorizedRelayer sender newRelayer => addAuthorizedRelayer sender newRelayer s
  | .removeAuthorizedRelayer sender relayer => removeAuthorizedRelayer sender relayer s
  | .setConfig sender newConfigs => (setConfig K sender newConfigs s).map Prod.snd
  | .changeConfigHash account newConfigHash => changeConfigHash K account newConfigHash s
  | .onInstall account data => onInstall K account data s
  | .onUninstall account => pure (onUninstall K account s)

def earnStep (s : State W) (a : Action W) : Option (State W) := (act K s a).toOption

end Bufi.Earn
