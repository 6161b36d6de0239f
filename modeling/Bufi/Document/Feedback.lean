import Bufi.Document.Store

/-!
# Feedback documents

`resolveFeedbackDocument` turns the document of a feedback into entities: the document
itself, its proof of payment, its attachments and its features, which have the flat names
of one profile and the nested ones of another.
-/

namespace Bufi.Document

open Bufi.Evm Bufi.Text

def firstNonNull (a b : Option Utf16) : Option Utf16 := a.or b

def saveFeature (documentId : Bytes) (position : ℕ) (kind : FeedbackFeatureKind) (value : Utf16) :
    Handler ℕ := do
  save (.feedbackDocumentFeature
    { id := concatI32 documentId position, document := documentId, position, kind, value })
  pure (position + 1)

def saveFeatureList (documentId : Bytes) (startPosition : ℕ) (kind : FeedbackFeatureKind)
    (values : List Utf16) : Handler ℕ :=
  values.foldlM (fun position value => saveFeature documentId position kind value) startPosition

def listOfStrings (obj : TypedMap) (key : String) : Except Trap (List Utf16) :=
  asStringArray (obj.get key)

/-- `if (value != null) position = saveFeature(..)` -/
def saveFeatureIf (documentId : Bytes) (position : ℕ) (kind : FeedbackFeatureKind)
    (value : Option Utf16) : Handler ℕ :=
  match value with
  | none => pure position
  | some value => saveFeature documentId position kind value

/-- `if (a2a != null) ..` -/
def saveA2aFeatures (documentId : Bytes) (position : ℕ) (a2a : Option TypedMap) : Handler ℕ :=
  match a2a with
  | none => pure position
  | some a2a => do
    saveFeatureList documentId position .A2A_SKILL (← listOfStrings a2a "skills")

/-- `if (oasf != null) ..` -/
def saveOasfFeatures (documentId : Bytes) (position : ℕ) (oasf : Option TypedMap) : Handler ℕ :=
  match oasf with
  | none => pure position
  | some oasf => do
    let position ← saveFeatureList documentId position .OASF_SKILL (← listOfStrings oasf "skills")
    saveFeatureList documentId position .OASF_DOMAIN (← listOfStrings oasf "domains")

/-- `if (mcp != null) ..` -/
def saveMcpFeatures (documentId : Bytes) (position : ℕ) (mcp : Option TypedMap) : Handler ℕ :=
  match mcp with
  | none => pure position
  | some mcp => do
    let tool ← asString (mcp.get "tool")
    let position ← saveFeatureIf documentId position .MCP_TOOL tool
    let prompt ← asString (mcp.get "prompt")
    let position ← saveFeatureIf documentId position .MCP_PROMPT prompt
    let resource ← asString (mcp.get "resource")
    let position ← saveFeatureIf documentId position .MCP_RESOURCE resource
    let completion ← asString (mcp.get "completion")
    saveFeatureIf documentId position .MCP_COMPLETION completion

def saveFeatures (documentId : Bytes) (obj : TypedMap) (a2a : Option TypedMap) : Handler ℕ := do
  let oasf ← asObject (obj.get "oasf")
  let mcp ← asObject (obj.get "mcp")
  let position ← saveA2aFeatures documentId 0 a2a
  let position ← saveOasfFeatures documentId position oasf
  let flatDomain ← asString (obj.get "domain")
  let position ← saveFeatureIf documentId position .OASF_DOMAIN flatDomain
  let flatSkill ← asString (obj.get "skill")
  let position ← saveFeatureIf documentId position .SKILL flatSkill
  let flatCapability ← asString (obj.get "capability")
  let position ← saveFeatureIf documentId position .MCP_CAPABILITY flatCapability
  saveMcpFeatures documentId position mcp

def savePaymentProof (documentId : Bytes) (proof : TypedMap) : Handler Unit := do
  let fromAddress ← asString (proof.get "fromAddress")
  let toAddress ← asString (proof.get "toAddress")
  let chainId ← asStringOrNumber (proof.get "chainId")
  let transactionHash := firstNonNull (← asString (proof.get "txHash"))
    (← asString (proof.get "transactionHash"))
  let transactionSignature := firstNonNull (← asString (proof.get "txSignature"))
    (← asString (proof.get "transactionSignature"))
  let amount ← asString (proof.get "amount")
  let currency ← asString (proof.get "currency")
  let protocol ← asString (proof.get "protocol")
  let timestamp ← asString (proof.get "timestamp")
  let decimals ← asWholeI32 (proof.get "decimals") 0 255
  save (.paymentProof
    { id := documentId, document := documentId, fromAddress, toAddress, chainId, transactionHash,
      transactionSignature, amount, currency, protocol, timestamp
      decimals := if decimals.present then some decimals.value else none })

section

variable (host : Host)

def saveAttachment (documentId : Bytes) (position : ℕ) (attachment : TypedMap) : Handler Unit := do
  let name ← asString (attachment.get "name")
  let uri ← asString (attachment.get "uri")
  let mimeType ← asString (attachment.get "mimeType")
  match name, uri, mimeType with
  | some name, some uri, some mimeType => do
    let size ← asWholeBigInt (attachment.get "size")
    let description ← asString (attachment.get "description")
    let uploadedAt ← asString (attachment.get "uploadedAt")
    save (.feedbackAttachment
      { id := concatI32 documentId position, document := documentId, position, name, uri,
        uriKind := classifyUri host uri, mimeType, size, description, uploadedAt })
  | _, _, _ => pure ()

/-- The rating of a document, if it is a decimal number. -/
def documentValue (value : Option Utf16) : Except Trap (Option ℚ) :=
  match value with
  | none => pure none
  | some value =>
    if isDecimalString value then some <$> bigDecimalFromString host value else pure none

/-- A field of the nested object, or else the flat one. -/
def a2aField (a2a : Option TypedMap) (obj : TypedMap) (nested flat : String) :
    Except Trap (Option Utf16) :=
  match a2a with
  | some a2a => do pure (firstNonNull (← asString (a2a.get nested)) (← asString (obj.get flat)))
  | none => asString (obj.get flat)

/-- `if (paymentProof != null) ..` -/
def savePaymentProofIf (documentId : Bytes) (proof : Option TypedMap) : Handler Unit :=
  match proof with
  | some proof => savePaymentProof documentId proof
  | none => pure ()

/-- The entities of a document that is an object. -/
def saveFeedbackDocument (id feedbackId : Bytes) (sourceURI : Utf16) (sourceURIKind : URIKind)
    (rawJSON : Utf16) (obj : TypedMap) : Handler Unit := do
  let contentHash := host.keccak256 (host.fromUTF8 rawJSON)
  let agentRegistry ← asString (obj.get "agentRegistry")
  let agentId ← asWholeBigInt (obj.get "agentId")
  let clientAddress ← asString (obj.get "clientAddress")
  let createdAt ← asString (obj.get "createdAt")
  let value ← documentValue host (← asString (obj.get "value"))
  let valueDecimals ← asWholeI32 (obj.get "valueDecimals") 0 18
  let tag1 ← asString (obj.get "tag1")
  let tag2 ← asString (obj.get "tag2")
  let endpoint ← asString (obj.get "endpoint")
  let reasoning ← asString (obj.get "reasoning")
  let context ← asString (obj.get "context")
  let task ← asString (obj.get "task")
  let a2a ← asObject (obj.get "a2a")
  let a2aContextId ← a2aField a2a obj "contextId" "a2aContextId"
  let a2aTaskId ← a2aField a2a obj "taskId" "a2aTaskId"
  let paymentProof ← asObject (obj.get "proofOfPayment")
  save (.feedbackDocument
    { id, feedback := feedbackId, sourceURI, sourceURIKind, contentHash, rawJSON, agentRegistry,
      agentId, clientAddress, createdAt, value
      valueDecimals := if valueDecimals.present then some valueDecimals.value else none
      tag1, tag2, endpoint, reasoning, context, task, a2aContextId, a2aTaskId
      proofOfPayment := if paymentProof.isSome then some id else none })
  savePaymentProofIf id paymentProof
  let attachments ← asObjectArray (obj.get "attachments")
  attachments.zipIdx.forM (fun (attachment, i) => saveAttachment host id i attachment)
  let _ ← saveFeatures id obj a2a

/-- The id of the entity, or null. -/
def resolveFeedbackDocument (feedbackId : Bytes) (sourceURI : Utf16) (sourceURIKind : URIKind) :
    Handler (Option Bytes) :=
  resolveDocument host FeedbackDocument.load
    (fun id rawJSON obj => saveFeedbackDocument host id feedbackId sourceURI sourceURIKind rawJSON obj)
    feedbackId sourceURI sourceURIKind

end

end Bufi.Document
