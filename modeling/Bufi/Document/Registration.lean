import Bufi.Document.Store

/-!
# Registration documents

`resolveAgentRegistration` turns the document of an agent into entities.  Every read goes
through the guarded functions, and a document that is no JSON object gives null.  Entities
are saved one by one; the registration itself comes last.
-/

namespace Bufi.Document

open Bufi.Evm Bufi.Text

def KNOWN_SERVICE_KEYS : List Utf16 :=
  ["name", "endpoint", "version", "capabilities", "mcpTools", "mcpPrompts", "mcpResources",
    "a2aSkills", "skills", "domains"].map lit

section

variable (host : Host)

def classifyServiceKind (name : Utf16) : AgentServiceKind :=
  let lower := host.toLowerCase name
  if lower = lit "web" then .WEB
  else if lower = lit "a2a" then .A2A
  else if lower = lit "mcp" then .MCP
  else if lower = lit "webmcp" then .WEBMCP
  else if lower = lit "x402" then .X402
  else if lower = lit "oasf" then .OASF
  else if lower = lit "ens" then .ENS
  else if lower = lit "did" then .DID
  else if lower = lit "email" then .EMAIL
  else if lower = lit "agentwallet" then .AGENT_WALLET
  else .CUSTOM

def classifyTrustKind (name : Utf16) : TrustKind :=
  let lower := host.toLowerCase name
  if lower = lit "reputation" then .REPUTATION
  else if lower = lit "crypto-economic" then .CRYPTO_ECONOMIC
  else if lower = lit "tee-attestation" then .TEE_ATTESTATION
  else if lower = lit "social-graph" then .SOCIAL_GRAPH
  else .CUSTOM

def saveServiceFeatures (serviceId : Bytes) (startPosition : ℕ) (kind : AgentServiceFeatureKind)
    (values : List Utf16) : Handler ℕ :=
  values.foldlM (fun position value => do
    save (.agentServiceFeature
      { id := concatI32 serviceId position, service := serviceId, position, kind, value })
    pure (position + 1)) startPosition

def saveServiceAttributes (serviceId : Bytes) (service : TypedMap) : Handler Unit := do
  let _ ← service.foldlM (fun position (key, value) =>
    if KNOWN_SERVICE_KEYS.contains key then pure position
    else do
      let described ← describeJsonValue host.f64Text value
      save (.agentServiceAttribute
        { id := concatI32 serviceId position, service := serviceId, position, key
          value := described.value, valueType := described.valueType })
      pure (position + 1)) 0

def saveAgentService (registrationId : Bytes) (position : ℕ) (service : TypedMap) :
    Handler Unit := do
  let name ← asString (service.get "name")
  let endpoint ← asString (service.get "endpoint")
  match name, endpoint with
  | some name, some endpoint => do
    let version ← asString (service.get "version")
    let id := concatI32 registrationId position
    save (.agentService
      { id, registration := registrationId, position, kind := classifyServiceKind host name, name,
        endpoint, version, capabilitiesInferred := false })
    let featurePosition ← saveServiceFeatures id 0 .CAPABILITY
      (← asStringArray (service.get "capabilities"))
    let featurePosition ← saveServiceFeatures id featurePosition .MCP_TOOL
      (← asStringArray (service.get "mcpTools"))
    let featurePosition ← saveServiceFeatures id featurePosition .MCP_PROMPT
      (← asStringArray (service.get "mcpPrompts"))
    let featurePosition ← saveServiceFeatures id featurePosition .MCP_RESOURCE
      (← asStringArray (service.get "mcpResources"))
    let featurePosition ← saveServiceFeatures id featurePosition .A2A_SKILL
      (← asStringArray (service.get "a2aSkills"))
    let featurePosition ← saveServiceFeatures id featurePosition .OASF_SKILL
      (← asStringArray (service.get "skills"))
    let _ ← saveServiceFeatures id featurePosition .OASF_DOMAIN
      (← asStringArray (service.get "domains"))
    saveServiceAttributes host id service
  | _, _ => pure ()

def saveAgentRegistrationReference (registrationId : Bytes) (position : ℕ)
    (reference : TypedMap) : Handler Unit := do
  match ← asString (reference.get "agentRegistry") with
  | none => pure ()
  | some agentRegistry => do
    let caip10 := parseCaip10 agentRegistry
    let agentId ← asWholeBigInt (reference.get "agentId")
    save (.agentRegistrationReference
      { id := concatI32 registrationId position, registration := registrationId, position,
        agentRegistry, namespaceName := caip10.namespaceName, chainId := caip10.chainId,
        registryAddress := caip10.reference, agentId })

def saveAgentTrust (registrationId : Bytes) (position : ℕ) (name : Utf16) : Handler Unit :=
  save (.agentTrust
    { id := concatI32 registrationId position, registration := registrationId, position,
      kind := classifyTrustKind host name, name })

/-- The entities of a document that is an object. -/
def saveAgentRegistration (id agentId : Bytes) (sourceURI : Utf16) (sourceURIKind : URIKind)
    (rawJSON : Utf16) (obj : TypedMap) : Handler Unit := do
  let contentHash := host.keccak256 (host.fromUTF8 rawJSON)
  let profileType ← asString (obj.get "type")
  let name ← asString (obj.get "name")
  let description ← asString (obj.get "description")
  let image ← asString (obj.get "image")
  let active ← asBool (obj.get "active")
  let x402Support ← asBool (obj.get "x402Support")
  let servicesField := obj.get "services"
  let usedServices := servicesField.any (fun field => !field.isNull)
  let servicesValue := if usedServices then servicesField else obj.get "endpoints"
  let services ← asObjectArray servicesValue
  services.zipIdx.forM (fun (service, i) => saveAgentService host id i service)
  let registrations ← asObjectArray (obj.get "registrations")
  registrations.zipIdx.forM (fun (reference, i) => saveAgentRegistrationReference id i reference)
  let supportedTrust ← asStringArray (obj.get "supportedTrust")
  supportedTrust.zipIdx.forM (fun (name, i) => saveAgentTrust host id i name)
  save (.agentRegistration
    { id, agent := agentId, sourceURI, sourceURIKind, contentHash, rawJSON, profileType, name,
      description, image
      active := if active.present then some active.value else none
      x402Support := if x402Support.present then some x402Support.value else none
      usedLegacyEndpointsField := !usedServices && (obj.get "endpoints").isSome })

/-- The id of the entity, or null. -/
def resolveAgentRegistration (agentId : Bytes) (sourceURI : Utf16) (sourceURIKind : URIKind) :
    Handler (Option Bytes) :=
  resolveDocument host AgentRegistration.load
    (fun id rawJSON obj => saveAgentRegistration host id agentId sourceURI sourceURIKind rawJSON obj)
    agentId sourceURI sourceURIKind

end

end Bufi.Document
