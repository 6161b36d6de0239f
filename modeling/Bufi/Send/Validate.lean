import Bufi.Send.Frost
import Bufi.Js.Number
import Bufi.Treasury.Owners

/-!
# Validation of a send request

`readPolicy` is the policy as the server reads it off the chain, `frostDrift` the
comparison of that policy with `owners.json`, and `validateSend` the checks on a
request before a job is started.  `isAddress`, `parseUnits` and the text of an
address are viem's, and the order of labels that of `localeCompare`; they are
parameters.

A property of an object may be inherited.  `frost.shares[o.id]?.length` of a label
without an entry of its own is therefore not always absent: it is the number of
arguments of a function of `Object.prototype` where the label is the name of one
(`inheritedLength`).
-/

namespace Bufi.Send

open Bufi.Evm Bufi.Js Bufi.Treasury

/-! ### The policy -/

inductive PositionId
  | evm
  | solana
  deriving DecidableEq

structure Owner where
  id : String
  address : Address
  weight : Number
  deriving DecidableEq

structure TreasuryPolicy where
  thresholdWeight : Number
  owners : List Owner
  perIntentCap : Number
  deriving DecidableEq

/-- What the server uses of viem. -/
structure Viem where
  isAddress : String → Bool
  parseUnits : String → ℕ → ℤ
  addressText : Address → String

/-- `Number(x)` of a big integer. -/
def numberOf (n : ℕ) : Number := Number.round n

/-- The number `x / 1e6`. -/
def perMillion : Number → Number
  | .finite q => Number.round (q / 1000000)
  | x => x

/-- The test `a.toLowerCase() === b.toLowerCase()`. -/
def sameText (a b : String) : Bool := a.toList.map Char.toLower == b.toList.map Char.toLower

/-- `known` are the entries of the key file: labels and addresses. -/
def idOf (known : List (String × String)) (a : String) : String :=
  ((known.find? (fun e => sameText e.2 a)).map Prod.fst).getD
    (String.ofList (a.toList.take 8))

def readOwner (v : Viem) (known : List (String × String)) (S : Signers) (a : Address) : Owner :=
  ⟨idOf known (v.addressText a), a, numberOf (S.weights a).toNat⟩

def readPolicy {W : Type} (v : Viem) (localeCompare : String → String → ℤ)
    (known : List (String × String)) (s : State W) : TreasuryPolicy where
  thresholdWeight := numberOf s.thresholdWeight.toNat
  owners := (s.owners.map (readOwner v known s.toSigners)).insertionSort
    (fun a b => localeCompare a.id b.id ≤ 0)
  perIntentCap := perMillion (numberOf s.perIntentCap.toNat)

/-! ### Drift -/

/-- The `length` of what every object inherits under a name. -/
def inheritedLength (name : String) : ℕ :=
  if name ∈ ["__defineGetter__", "__defineSetter__"] then 2
  else if name ∈ ["constructor", "hasOwnProperty", "isPrototypeOf", "propertyIsEnumerable",
    "__lookupGetter__", "__lookupSetter__"] then 1
  else 0

/-- The number `frost.shares[id]?.length ?? 0`. -/
def sharesLength (frost : Owners) (id : String) : ℕ :=
  match frost.shares.lookup id with
  | some shares => shares.length
  | none => inheritedLength id

inductive Drift
  | noOwnersJson
  | threshold (frost : ℕ) (onChain : Number)
  | owner (id : String) (shares : ℕ) (weight : Number)
  | extra (ids : List String)
  deriving DecidableEq

def Drift.text (numberText : Number → String) : Drift → String
  | noOwnersJson => "no owners.json"
  | threshold frost onChain =>
    "share threshold " ++ toString frost ++ " vs on-chain threshold " ++ numberText onChain
  | owner id shares weight =>
    "owner " ++ id ++ ": " ++ toString shares ++ " shares vs on-chain weight " ++ numberText weight
  | extra ids => "share holders not on-chain owners: " ++ String.intercalate ", " ids

def isOwner (pol : TreasuryPolicy) (id : String) : Bool := pol.owners.any (fun o => o.id == id)

def frostDrift (pol : TreasuryPolicy) : Option Owners → Option Drift
  | none => some .noOwnersJson
  | some frost =>
    if Number.ofNat frost.threshold ≠ pol.thresholdWeight then
      some (.threshold frost.threshold pol.thresholdWeight)
    else
      match pol.owners.find? (fun o => Number.ofNat (sharesLength frost o.id) ≠ o.weight) with
      | some o => some (.owner o.id (sharesLength frost o.id) o.weight)
      | none =>
        match (frost.shares.map Prod.fst).filter (fun id => !isOwner pol id) with
        | [] => none
        | extra => some (.extra extra)

/-! ### Requests -/

structure SendRequest where
  asset : String
  amount : Option String
  recipient : Option String
  signers : Option (List String)
  source : Option String
  expectRefusal : Bool
  deriving DecidableEq

structure ValidateInput where
  req : SendRequest
  pol : TreasuryPolicy
  allowlisted : Bool
  balances : PositionId → Number
  frostOwners : Option Owners

structure SendPlan where
  source : PositionId
  value : ℤ
  signers : List String
  weight : Number
  amount : Number
  deriving DecidableEq

inductive RequestError
  | asset (name : String)
  | amountFormat
  | amountNotPositive
  | recipient
  | noSigner
  | notOwners (ids : List String)
  | sandboxCap
  | perIntentCap (cap : Number)
  | refusalDemo
  | noPosition (amount : String) (evm solana : Number)
  | shortPosition (source : PositionId) (balance need : Number)
  | badSource
  | drift (what : Drift)
  | unminted (jobId : String)
  | alreadyRunning (jobId : String)
  | noAttestation
  deriving DecidableEq

def RequestError.status : RequestError → ℕ
  | drift _ | unminted _ | alreadyRunning _ => 409
  | noAttestation => 404
  | _ => 400

def PositionId.label : PositionId → String
  | evm => "Treasury contract"
  | solana => "Squads vault"

def PositionId.feeEstimate : PositionId → Number
  | evm => Number.round (1 / 100)
  | solana => Number.round (1 / 5)

def RequestError.text (numberText : Number → String) : RequestError → String
  | asset name => name ++ " is not on Gateway yet; only USDC can move"
  | amountFormat => "amount must be a positive decimal with at most 6 places"
  | amountNotPositive => "amount must be positive"
  | recipient => "recipient must be an EVM address"
  | noSigner => "choose at least one owner to approve"
  | notOwners ids => "not an owner: " ++ String.intercalate ", " ids
  | sandboxCap => "this sandbox caps a single send at 1 USDC"
  | perIntentCap cap => "per-intent cap is " ++ numberText cap ++ " USDC"
  | refusalDemo => "refusal demo: this request is valid and would move funds; pick a " ++
      "non-allowlisted recipient or a sub-threshold quorum"
  | noPosition amount evm solana => "no position covers " ++ amount ++ " USDC + fee (treasury " ++
      numberText evm ++ ", vault " ++ numberText solana ++ ")"
  | shortPosition source balance need => source.label ++ " holds " ++ numberText balance ++
      " USDC; " ++ numberText need ++ " needed with fee"
  | badSource => "source must be auto, evm or solana"
  | drift what => "FROST share map disagrees with the on-chain policy (" ++ what.text numberText ++
      "); re-run the DKG for the current owners before signing on Solana"
  | unminted jobId => "job " ++ jobId ++ " holds an unminted attestation for this recipient and " ++
      "amount; resume that mint instead of sending again"
  | alreadyRunning jobId => "a send is already running (" ++ jobId ++ ")"
  | noAttestation => "no unminted attestation for this job"

/-! ### Validation -/

/-- The digits before and after the point. -/
def amountParts (s : String) : List Char × Option (List Char) :=
  (s.toList.takeWhile (· ≠ '.'),
    match s.toList.dropWhile (· ≠ '.') with
    | [] => none
    | _ :: places => some places)

/-- `/^\d+(\.\d{1,6})?$/.test(s)`. -/
def isAmount (s : String) : Bool :=
  let (whole, places) := amountParts s
  !whole.isEmpty && whole.all Char.isDigit
    && places.all (fun p => decide (1 ≤ p.length ∧ p.length ≤ 6) && p.all Char.isDigit)

/-- `Number(s)` of an amount. -/
def amountNumber (s : String) : Number :=
  let places := (amountParts s).2.getD []
  Number.round ((digitsValue ((amountParts s).1 ++ places) : ℚ) / 10 ^ places.length)

def sandboxCapUsdc : ℕ := 1

def canCover (balances : PositionId → Number) (amount : Number) (id : PositionId) : Bool :=
  (amount.plus id.feeEstimate).le (balances id)

/-- The position with the larger balance among those that cover the amount. -/
def pickSource (balances : PositionId → Number) (amount perIntentCap : Number) :
    Option PositionId :=
  match !perIntentCap.lt amount && canCover balances amount .evm,
    canCover balances amount .solana with
  | true, true => some (if (balances .evm).lt (balances .solana) then .solana else .evm)
  | true, false => some .evm
  | false, true => some .solana
  | false, false => none

def checkBalance (balances : PositionId → Number) (amount : Number) (source : PositionId) :
    Except RequestError PositionId := do
  let need := amount.plus source.feeEstimate
  require (¬(balances source).lt need = true) (.shortPosition source (balances source) need)
  pure source

def chooseSource (i : ValidateInput) (amountText : String) (amount : Number) :
    Except RequestError PositionId :=
  match i.req.source with
  | none | some "" | some "auto" =>
    orRevert (pickSource i.balances amount i.pol.perIntentCap)
      (.noPosition amountText (i.balances .evm) (i.balances .solana))
  | some "evm" => checkBalance i.balances amount .evm
  | some "solana" => checkBalance i.balances amount .solana
  | some _ => .error .badSource

/-- The first owner with a label. -/
def ownerOf (pol : TreasuryPolicy) (id : String) : Option Owner :=
  pol.owners.find? (fun o => o.id == id)

def weightOfLabel (pol : TreasuryPolicy) (id : String) : Number :=
  ((ownerOf pol id).map Owner.weight).getD (.ofNat 0)

def weightOfLabels (pol : TreasuryPolicy) (ids : List String) : Number :=
  ids.foldl (fun sum id => sum.plus (weightOfLabel pol id)) (.ofNat 0)

def checkDrift (i : ValidateInput) (source : PositionId) : Except RequestError Unit :=
  match source, frostDrift i.pol i.frostOwners with
  | .solana, some drift => .error (.drift drift)
  | _, _ => pure ()

def validateSend (v : Viem) (i : ValidateInput) : Except RequestError SendPlan := do
  require (i.req.asset = "USDC") (.asset i.req.asset)
  let amountText := i.req.amount.getD ""
  require (isAmount amountText = true) .amountFormat
  let value := v.parseUnits amountText 6
  require (0 < value) .amountNotPositive
  require (v.isAddress (i.req.recipient.getD "") = true) .recipient
  let signers := (i.req.signers.getD []).eraseDups
  require (signers ≠ []) .noSigner
  let unknown := signers.filter (fun s => !isOwner i.pol s)
  require (unknown = []) (.notOwners unknown)
  let weight := weightOfLabels i.pol signers
  let amount := amountNumber amountText
  require (¬(Number.ofNat sandboxCapUsdc).lt amount = true) .sandboxCap
  require (¬i.pol.perIntentCap.lt amount = true) (.perIntentCap i.pol.perIntentCap)
  require (¬(i.req.expectRefusal = true ∧ i.allowlisted = true
    ∧ i.pol.thresholdWeight.le weight = true)) .refusalDemo
  let source ← chooseSource i amountText amount
  checkDrift i source
  pure ⟨source, value, signers, weight, amount⟩

end Bufi.Send
