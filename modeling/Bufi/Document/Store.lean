import Bufi.Document.Uri

/-!
# Entities of documents

The entities that registration and feedback documents are turned into.  The store holds
those that were saved, the latest first.  A handler reads and changes the store and may be
aborted by a trap.
-/

namespace Bufi.Document

open Bufi.Evm Bufi.Text

structure AgentRegistration where
  id : Bytes
  agent : Bytes
  sourceURI : Utf16
  sourceURIKind : URIKind
  contentHash : Bytes
  rawJSON : Utf16
  profileType : Option Utf16
  name : Option Utf16
  description : Option Utf16
  image : Option Utf16
  active : Option Bool
  x402Support : Option Bool
  usedLegacyEndpointsField : Bool

inductive AgentServiceKind
  | WEB
  | A2A
  | MCP
  | WEBMCP
  | X402
  | OASF
  | ENS
  | DID
  | EMAIL
  | AGENT_WALLET
  | CUSTOM
  deriving DecidableEq

structure AgentService where
  id : Bytes
  registration : Bytes
  position : ℕ
  kind : AgentServiceKind
  name : Utf16
  endpoint : Utf16
  version : Option Utf16
  capabilitiesInferred : Bool

inductive AgentServiceFeatureKind
  | CAPABILITY
  | MCP_TOOL
  | MCP_PROMPT
  | MCP_RESOURCE
  | A2A_SKILL
  | OASF_SKILL
  | OASF_DOMAIN
  deriving DecidableEq

structure AgentServiceFeature where
  id : Bytes
  service : Bytes
  position : ℕ
  kind : AgentServiceFeatureKind
  value : Utf16

structure AgentServiceAttribute where
  id : Bytes
  service : Bytes
  position : ℕ
  key : Utf16
  value : Utf16
  valueType : AgentServiceAttributeType

structure AgentRegistrationReference where
  id : Bytes
  registration : Bytes
  position : ℕ
  agentRegistry : Utf16
  namespaceName : Option Utf16
  chainId : Option Utf16
  registryAddress : Option Utf16
  agentId : Option ℤ

inductive TrustKind
  | REPUTATION
  | CRYPTO_ECONOMIC
  | TEE_ATTESTATION
  | SOCIAL_GRAPH
  | CUSTOM
  deriving DecidableEq

structure AgentTrust where
  id : Bytes
  registration : Bytes
  position : ℕ
  kind : TrustKind
  name : Utf16

structure FeedbackDocument where
  id : Bytes
  feedback : Bytes
  sourceURI : Utf16
  sourceURIKind : URIKind
  contentHash : Bytes
  rawJSON : Utf16
  agentRegistry : Option Utf16
  agentId : Option ℤ
  clientAddress : Option Utf16
  createdAt : Option Utf16
  value : Option ℚ
  valueDecimals : Option ℤ
  tag1 : Option Utf16
  tag2 : Option Utf16
  endpoint : Option Utf16
  reasoning : Option Utf16
  context : Option Utf16
  task : Option Utf16
  a2aContextId : Option Utf16
  a2aTaskId : Option Utf16
  proofOfPayment : Option Bytes

inductive FeedbackFeatureKind
  | A2A_SKILL
  | OASF_SKILL
  | OASF_DOMAIN
  | SKILL
  | MCP_CAPABILITY
  | MCP_TOOL
  | MCP_PROMPT
  | MCP_RESOURCE
  | MCP_COMPLETION
  deriving DecidableEq

structure FeedbackDocumentFeature where
  id : Bytes
  document : Bytes
  position : ℕ
  kind : FeedbackFeatureKind
  value : Utf16

structure PaymentProof where
  id : Bytes
  document : Bytes
  fromAddress : Option Utf16
  toAddress : Option Utf16
  chainId : Option Utf16
  transactionHash : Option Utf16
  transactionSignature : Option Utf16
  amount : Option Utf16
  currency : Option Utf16
  protocol : Option Utf16
  timestamp : Option Utf16
  decimals : Option ℤ

structure FeedbackAttachment where
  id : Bytes
  document : Bytes
  position : ℕ
  name : Utf16
  uri : Utf16
  uriKind : URIKind
  mimeType : Utf16
  size : Option ℤ
  description : Option Utf16
  uploadedAt : Option Utf16

/-- An entity that was saved. -/
inductive Entity
  | agentRegistration (e : AgentRegistration)
  | agentService (e : AgentService)
  | agentServiceFeature (e : AgentServiceFeature)
  | agentServiceAttribute (e : AgentServiceAttribute)
  | agentRegistrationReference (e : AgentRegistrationReference)
  | agentTrust (e : AgentTrust)
  | feedbackDocument (e : FeedbackDocument)
  | feedbackDocumentFeature (e : FeedbackDocumentFeature)
  | paymentProof (e : PaymentProof)
  | feedbackAttachment (e : FeedbackAttachment)

/-- The entities that were saved, the latest first. -/
abbrev Store := List Entity

/-- A program of the subgraph. -/
abbrev Handler := StateT Store (Except Trap)

def save (e : Entity) : Handler Unit := modify (fun store => e :: store)

def AgentRegistration.load (id : Bytes) : Handler (Option AgentRegistration) := do
  let store ← get
  pure (store.findSome? (fun
    | .agentRegistration e => if e.id = id then some e else none
    | _ => none))

def FeedbackDocument.load (id : Bytes) : Handler (Option FeedbackDocument) := do
  let store ← get
  pure (store.findSome? (fun
    | .feedbackDocument e => if e.id = id then some e else none
    | _ => none))

/-- From a URI to the entities of its document: the id of the main one, or null.  Both kinds
of documents take this way, each with its own way to load the entity and to save what is in
an object. -/
def resolveDocument {α : Type} (host : Host) (load : Bytes → Handler (Option α))
    (write : Bytes → Utf16 → TypedMap → Handler Unit) (owner : Bytes) (sourceURI : Utf16)
    (sourceURIKind : URIKind) : Handler (Option Bytes) :=
  if sourceURIKind ≠ .DATA then pure none
  else
    match decodeDataUri host sourceURI with
    | none => pure none
    | some rawJSON => do
      let id := host.keccak256 (owner ++ host.fromUTF8 sourceURI)
      match ← load id with
      | some _ => pure (some id)
      | none =>
        match host.tryFromString rawJSON with
        | none => pure none
        | some parsed => do
          match ← asObject (some parsed) with
          | none => pure none
          | some obj => do
            write id rawJSON obj
            pure (some id)

end Bufi.Document
