import Bufi.Js.Collections
import Bufi.Weighted.Coalitions

/-!
# The two backends

`compileSquads` has no weights to work with: it emits one spending limit for
every minimal winning coalition and asset, signed by all of the coalition.
`compileEvm` hands weights and threshold to a multisig that counts.  Each of them
refuses what it cannot express.

`weightedRule_preserved` says that both have the rule of the spec: a set of
owners can spend exactly when its weight reaches the threshold.
-/

namespace Bufi.Weighted

open Bufi.Evm Bufi.Js Bufi.Threshold

/-! ### Squads -/

def smartAccountProgramId : String := "SMRTzfY6DfH5ik3TKiyLFfXexV8uSG3d2UksSCYdunG"

def nativeSolMint : String := "11111111111111111111111111111111"

/-- Initiate, vote and execute. -/
def allPermissions : ℕ := 7

def u64Max : ℤ := 2 ^ 64 - 1

def defaultMaxPolicies : ℕ := 64

inductive SquadsPeriod
  | oneTime
  | daily
  | weekly
  | monthly
  | custom (seconds : ℤ)
  deriving DecidableEq

structure SquadsSigner where
  key : String
  permissions : ℕ
  deriving DecidableEq

structure TimeConstraints where
  start : ℤ
  expiration : Option ℤ
  period : SquadsPeriod
  accumulateUnused : Bool
  deriving DecidableEq

structure QuantityConstraints where
  maxPerPeriod : ℤ
  maxPerUse : ℤ
  enforceExactQuantity : Bool
  deriving DecidableEq

structure SpendingLimit where
  mint : String
  sourceAccountIndex : Number
  destinations : List String
  timeConstraints : TimeConstraints
  quantityConstraints : QuantityConstraints
  deriving DecidableEq

structure SquadsSpendingLimitPolicy where
  coalition : List String
  asset : String
  signers : List SquadsSigner
  threshold : ℕ
  timeLock : ℕ
  payload : SpendingLimit
  deriving DecidableEq

structure SquadsSettings where
  signers : List SquadsSigner
  threshold : ℕ
  timeLock : Number
  deriving DecidableEq

/-- Where a backend differs on purpose. -/
inductive Note
  | adminRequiresAll (owners : ℕ)
  | settingsQuorum
  | policyCount (coalitions assets : ℕ)
  | noAdminTimelock
  | timelockOnSquadsOnly (adminTimelockSeconds : Number)
  deriving DecidableEq

def Note.text (str : Number → String) : Note → String
  | adminRequiresAll owners =>
    "admin (owners, weights, allowlist) requires ALL " ++ toString owners
      ++ " owners on Squads, stricter than the weighted quorum on EVM"
  | settingsQuorum =>
    "the settings quorum (all owners) can also run arbitrary vault transactions, as the EVM quorum "
      ++ "can by uninstalling the AddressBook"
  | policyCount coalitions assets =>
    toString coalitions ++ " minimal winning coalition(s) × " ++ toString assets ++ " asset(s) = "
      ++ toString (coalitions * assets) ++ " policies"
  | noAdminTimelock => "adminTimelockSeconds is 0: an approved admin change lands immediately"
  | timelockOnSquadsOnly secs =>
    "adminTimelockSeconds=" ++ str secs
      ++ " applies on Squads only; Circle's weighted multisig executes admin changes immediately"

structure SquadsTreasuryPlan where
  programId : String
  settings : SquadsSettings
  policies : List SquadsSpendingLimitPolicy
  sourceAccountIndex : Number
  notes : List Note
  deriving DecidableEq

structure CompileSquadsOptions where
  maxPolicies : Option Number
  sourceAccountIndex : Option Number

section Squads

def failSquads (reason : Reason) : Failure := .specNotExpressible .squads reason

/-- A value that is there and not empty. -/
def truthy (x : Option String) : Option String := x.filter (fun s => s ≠ "")

/-- How an entry of the allowlist is called in an error. -/
def entryName (recipient : AllowedRecipient) (i : ℕ) : String := recipient.label.getD (toString i)

/-- The loop that fills `keyOf`. -/
def collectKeys : List (String × String) → List TreasuryOwner →
    Except Failure (List (String × String))
  | keyOf, [] => pure keyOf
  | keyOf, owner :: rest => do
    let key ← orRevert (truthy owner.solana) (failSquads (.noSolanaKey owner.id))
    require (key ∉ keyOf.map Prod.snd) (failSquads (.solanaKeyTwice key))
    collectKeys (mapSet keyOf owner.id key) rest

def solanaWallets (allowlist : List AllowedRecipient) : Except Failure (List String) :=
  allowlist.zipIdx.mapM (fun x =>
    orRevert x.1.solana (failSquads (.noSolanaWallet (entryName x.1 x.2))))

def toSquadsPeriod : Period → Except Failure SquadsPeriod
  | .custom customSeconds => do
    pure (.custom (← orRevert customSeconds.toInt? .notAnInteger))
  | .oneTime => pure .oneTime
  | .daily => pure .daily
  | .weekly => pure .weekly
  | .monthly => pure .monthly

/-- `budget ? toSquadsPeriod(budget.period) : Daily`. -/
def periodOf (asset : TreasuryAsset) : Except Failure SquadsPeriod :=
  match asset.budget with
  | some budget => toSquadsPeriod budget.period
  | none => pure .daily

def mintOf (asset : TreasuryAsset) : Except Failure String :=
  if asset.solanaMint = some "native" then pure nativeSolMint
  else orRevert asset.solanaMint (failSquads (.noSolanaMint asset.symbol))

/-- Every id of a coalition has a key. -/
def signerOf (keyOf : List (String × String)) (id : String) : SquadsSigner :=
  ⟨(keyOf.lookup id).getD "", allPermissions⟩

variable (keyOf : List (String × String)) (sourceAccountIndex : Number) (destinations : List String)

def policyOf (asset : TreasuryAsset) (mint : String) (coalition : List String) :
    Except Failure SquadsSpendingLimitPolicy := do
  let period ← periodOf asset
  pure {
    coalition
    asset := asset.symbol
    signers := coalition.map (signerOf keyOf)
    threshold := coalition.length
    timeLock := 0
    payload := {
      mint
      sourceAccountIndex
      destinations
      timeConstraints := { start := 0, expiration := none, period, accumulateUnused := false }
      quantityConstraints := {
        maxPerPeriod := asset.budget.elim u64Max Budget.maxPerPeriod
        maxPerUse := (asset.budget.bind Budget.maxPerUse).getD 0
        enforceExactQuantity := false } } }

/-- One turn of the loop over the assets. -/
def policiesOf (coalitions : List (List String)) (asset : TreasuryAsset) :
    Except Failure (List SquadsSpendingLimitPolicy) := do
  let mint ← mintOf asset
  require (mint = nativeSolMint → asset.solanaDecimals.all (fun decimals =>
    decide (decimals = .ofNat 9)) = true) (failSquads .nativeDecimals)
  coalitions.mapM (policyOf keyOf sourceAccountIndex destinations asset mint)

end Squads

def squadsNotes (spec : WeightedTreasurySpec) (coalitions : ℕ) : List Note :=
  [.adminRequiresAll spec.owners.length, .settingsQuorum,
    .policyCount coalitions spec.assets.length]
    ++ if spec.adminTimelockSeconds = .ofNat 0 then [.noAdminTimelock] else []

def compileSquads (spec : WeightedTreasurySpec) (options : CompileSquadsOptions) :
    Except Failure SquadsTreasuryPlan := do
  validateSpec spec
  let maxPolicies := options.maxPolicies.getD (.ofNat defaultMaxPolicies)
  let sourceAccountIndex := options.sourceAccountIndex.getD (.ofNat 0)
  let keyOf ← collectKeys [] spec.owners
  let destinations := (← solanaWallets spec.allowlist).eraseDups
  require (destinations.length ≠ 0) (failSquads .emptyDestinations)
  let coalitions ← minimalWinningCoalitions (spec.owners.map TreasuryOwner.member)
    spec.thresholdWeight
  require (maxPolicies.lt (.ofNat (coalitions.length * spec.assets.length)) = false)
    (failSquads (.tooManyPolicies coalitions.length spec.assets.length maxPolicies))
  let policies ← spec.assets.mapM (policiesOf keyOf sourceAccountIndex destinations coalitions)
  pure {
    programId := smartAccountProgramId
    settings := {
      signers := spec.owners.map (fun owner => signerOf keyOf owner.id)
      threshold := spec.owners.length
      timeLock := spec.adminTimelockSeconds }
    policies := policies.flatten
    sourceAccountIndex
    notes := squadsNotes spec coalitions.length }

/-! ### EVM -/

structure EvmOwner where
  address : String
  weight : ℤ
  deriving DecidableEq

structure EvmTreasuryConfig where
  owners : List EvmOwner
  thresholdWeight : ℤ
  allowlist : List String
  notes : List Note
  deriving DecidableEq

section Evm

-- `toLowerCase` is the one of JavaScript strings; nothing is assumed about it
variable (toLowerCase : String → String)

def failEvm (reason : Reason) : Failure := .specNotExpressible .evm reason

def evmOwner (owner : TreasuryOwner) : Except Failure EvmOwner := do
  let address ← orRevert (truthy owner.evm) (failEvm (.noEvmAddress owner.id))
  let weight ← orRevert owner.weight.toInt? .notAnInteger
  pure ⟨toLowerCase address, weight⟩

/-- The loop over the addresses, with those it has `seen`. -/
def checkAddresses : List String → List EvmOwner → Except Failure Unit
  | _, [] => pure ()
  | seen, owner :: rest => do
    require (owner.address ∉ seen) (failEvm (.evmAddressTwice owner.address))
    checkAddresses (seen ++ [owner.address]) rest

def evmRecipients (allowlist : List AllowedRecipient) : Except Failure (List String) :=
  allowlist.zipIdx.mapM (fun x => do
    let address ← orRevert (truthy x.1.evm) (failEvm (.noEvmRecipient (entryName x.1 x.2)))
    pure (toLowerCase address))

def checkNoBudget : List TreasuryAsset → Except Failure Unit
  | [] => pure ()
  | asset :: rest => do
    require (asset.budget = none) (failEvm (.budgetOnEvm asset.symbol))
    checkNoBudget rest

def compileEvm (spec : WeightedTreasurySpec) : Except Failure EvmTreasuryConfig := do
  validateSpec spec
  require (spec.owners.length ≤ maxEvmOwners) (failEvm .tooManyEvmOwners)
  let owners ← spec.owners.mapM (evmOwner toLowerCase)
  checkAddresses [] owners
  let allowlist := (← evmRecipients toLowerCase spec.allowlist).eraseDups
  checkNoBudget spec.assets
  let notes := if (Number.ofNat 0).lt spec.adminTimelockSeconds then
    [.timelockOnSquadsOnly spec.adminTimelockSeconds] else []
  let thresholdWeight ← orRevert spec.thresholdWeight.toInt? .notAnInteger
  pure ⟨owners, thresholdWeight, allowlist, notes⟩

end Evm

end Bufi.Weighted
