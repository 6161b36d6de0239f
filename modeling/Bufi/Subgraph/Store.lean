import Bufi.Index.Table
import Bufi.Evm.Hash
import Mathlib.Data.Rat.Defs

/-!
# The entities of the subgraph

The subgraph of Arc indexes three contracts: the identity registry, the reputation
registry and the escrow of jobs.  A handler loads entities from the store, changes its
copies and saves them; a saved copy replaces the whole entity.

Ids are texts with the chain and the contract in front, and an engagement is known by the
hash of the ids of its two agents.  Every data source has one contract, so the addresses
are those of the deployment.  Entities that only record an event are lists; times, texts
for display and the accounts behind addresses are left out.
-/

namespace Bufi.Subgraph

open Bufi.Evm Bufi.Index

/-- An entity id. -/
abbrev Id := Bytes

/-- The deployment: the chain, the contracts of the data sources, and what the library
does. -/
structure Deployment (W : Type) where
  keccak : Keccak W
  chainId : ℕ
  identityRegistry : Address
  reputationRegistry : Address
  agenticCommerce : Address
  /-- `value.divDecimal(10 ^ decimals)` -/
  divDecimal : ℤ → ℕ → ℚ

/-- The contracts of `chain.config.json` on the test network, with the hash that keeps its
pre-image. -/
def arcTestnet : Deployment Term where
  keccak := .symbolic
  chainId := 5042002
  identityRegistry := 0x8004A818BFB912233c491871b3d84c89A494BD9e
  reputationRegistry := 0x8004B663056A597Dffe9eCcC1965A193B7388713
  agenticCommerce := 0x0747EEf0706327138c69792bF28Cd525089e4583
  divDecimal value decimals := value / 10 ^ decimals

/-! ### Ids -/

/-- `n.toString()` -/
def decimal (n : ℕ) : Bytes := (Nat.toDigits 10 n).map (fun c => UInt8.ofNat c.toNat)

def hexDigit (n : ℕ) : UInt8 := UInt8.ofNat (if n < 10 then 48 + n else 87 + n)

/-- `a.toHexString()` -/
def hexText (a : Address) : Bytes :=
  48 :: 120 :: (List.range 40).map (fun i => hexDigit (a.toNat / 16 ^ (39 - i) % 16))

def colon : UInt8 := 58

/-- `"<chainId>:<contract address>"` -/
def registryEntityId (chainId : ℕ) (contract : Address) : Id :=
  decimal chainId ++ colon :: hexText contract

section Ids

variable {W : Type} (D : Deployment W)

/-- `"<chainId>:<identity registry address>:<agentId>"` -/
def agentEntityId (agentId : ℕ) : Id :=
  registryEntityId D.chainId D.identityRegistry ++ colon :: decimal agentId

def jobEntityId (jobId : ℕ) : Id :=
  registryEntityId D.chainId D.agenticCommerce ++ colon :: decimal jobId

/-- `"<chainId>:<reputation registry address>:<agentId>:<client>:<feedbackIndex>"` -/
def feedbackEntityId (agentId : ℕ) (client : Address) (feedbackIndex : ℕ) : Id :=
  registryEntityId D.chainId D.reputationRegistry ++ colon :: decimal agentId
    ++ colon :: hexText client ++ colon :: decimal feedbackIndex

def agenticCommerceEntityId : Id := registryEntityId D.chainId D.agenticCommerce

def engagementId (client provider : Id) : W := D.keccak.hash (client ++ provider)

end Ids

/-! ### Entities -/

structure IdentityRegistry where
  agentCount : ℤ
  unburnedAgentCount : ℤ
  deriving DecidableEq

structure Agent where
  owner : Option Address
  isBurned : Bool
  agentWallet : Option Address
  agentURI : String
  uriRevision : ℤ
  feedbackCount : ℤ
  activeFeedbackCount : ℤ
  responseCount : ℤ
  verifiedFeedbackCount : ℤ
  jobsAsClient : ℤ
  jobsAsProvider : ℤ
  settledAsClient : ℤ
  settledAsProvider : ℤ
  settledVolumeAsClient : ℤ
  settledVolumeAsProvider : ℤ
  refundedVolumeAsClient : ℤ
  deriving DecidableEq

structure WalletBinding where
  agent : Id
  deriving DecidableEq

structure Engagement where
  client : Id
  provider : Id
  jobCount : ℤ
  settledJobCount : ℤ
  settledVolume : ℤ
  refundedVolume : ℤ
  feedbackCount : ℤ
  verifiedFeedbackCount : ℤ
  lastSettledJob : Option Id
  deriving DecidableEq

structure AgenticCommerce where
  implementation : Option Address
  jobCount : ℤ
  settledJobCount : ℤ
  settledVolume : ℤ
  refundedVolume : ℤ
  deriving DecidableEq

inductive JobStatus
  | opened
  | funded
  | submitted
  | completed
  | rejected
  | expired
  deriving DecidableEq

structure Job (W : Type) where
  agenticCommerce : Id
  status : JobStatus
  client : Address
  provider : Option Address
  clientAgent : Option Id
  providerAgent : Option Id
  engagement : Option W
  budget : ℤ
  providerPayment : ℤ
  evaluatorFeePaid : ℤ
  refundedAmount : ℤ
  settled : Bool
  deriving DecidableEq

inductive JobEventKind
  | created
  | providerSet
  | budgetSet
  | funded
  | submitted
  | completed
  | rejected
  | expired
  | paymentReleased
  | evaluatorFeePaid
  | refunded
  deriving DecidableEq

structure JobEvent where
  job : Id
  kind : JobEventKind
  amount : Option ℤ
  deriving DecidableEq

inductive MetricKind
  | settledAsProvider
  | settledAsClient
  | refundedAsClient
  deriving DecidableEq

structure AgentMetricPoint where
  agent : Id
  kind : MetricKind
  amount : ℤ
  deriving DecidableEq

structure ReputationRegistry where
  feedbackCount : ℤ
  activeFeedbackCount : ℤ
  responseCount : ℤ
  deriving DecidableEq

structure Feedback where
  registry : Id
  agent : Id
  client : Address
  feedbackIndex : ℕ
  normalizedValue : ℚ
  tag1 : String
  tag2 : String
  clientAgent : Option Id
  verified : Bool
  evidence : Option Id
  isRevoked : Bool
  responseCount : ℤ
  deriving DecidableEq

structure FeedbackResponse where
  feedback : Id
  deriving DecidableEq

structure FeedbackMetricPoint where
  registry : Id
  agent : Id
  tag1 : String
  tag2 : String
  feedbackCountDelta : ℤ
  valueDelta : ℚ
  deriving DecidableEq

/-! ### The store -/

structure Store (W : Type) where
  identityRegistries : Table Id IdentityRegistry
  agents : Table Id Agent
  walletBindings : Table Address WalletBinding
  agenticCommerces : Table Id AgenticCommerce
  jobs : Table Id (Job W)
  jobEvents : List JobEvent
  engagements : Table W Engagement
  agentMetricPoints : List AgentMetricPoint
  reputationRegistries : Table Id ReputationRegistry
  feedbacks : Table Id Feedback
  feedbackResponses : List FeedbackResponse
  feedbackMetricPoints : List FeedbackMetricPoint

def Store.empty {W : Type} : Store W where
  identityRegistries := .empty
  agents := .empty
  walletBindings := .empty
  agenticCommerces := .empty
  jobs := .empty
  jobEvents := []
  engagements := .empty
  agentMetricPoints := []
  reputationRegistries := .empty
  feedbacks := .empty
  feedbackResponses := []
  feedbackMetricPoints := []

end Bufi.Subgraph
