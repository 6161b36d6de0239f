import Bufi.Document.Registration
import Bufi.Js.Address
import Bufi.Js.Json
import Mathlib.Data.List.Nodup

/-!
# The registration that BUFI publishes

`buildAgentRegistrationDocument` makes the registration document of a workspace, and
`buildAgentRegistrationDataUri` the `data:` URI of it that goes on-chain.  `indexed` lists the
entities that the subgraph makes of such a document.

The names and texts come from users.  White space is collapsed, and what is too long is cut
and ends in an ellipsis; a cut may part the two halves of a surrogate pair.
-/

namespace Bufi.Document

open Bufi.Evm Bufi.Text Bufi.Js

/-! ### Texts -/

/-- `\s` in a regular expression, and what `trim` removes. -/
def isSpace (c : CodeUnit) : Bool := whiteSpace.contains c.toNat

/-- `text.replace(/\s+/g, ' ')`; `pending` is white space that was not written yet. -/
def collapse (pending : Bool) : Utf16 → Utf16
  | [] => if pending then [0x20] else []
  | c :: rest =>
    if isSpace c then collapse true rest
    else if pending then 0x20 :: c :: collapse false rest
    else c :: collapse false rest

/-- `text.trim()` -/
def trim (text : Utf16) : Utf16 := (text.dropWhile isSpace).rdropWhile isSpace

def ellipsis : CodeUnit := 0x2026

def cleanText (value : Option Utf16) (max : ℕ) : Option Utf16 :=
  let text := trim (collapse false (value.getD []))
  if text = [] then none
  else if max < text.length then some (text.take (max - 1) ++ [ellipsis])
  else some text

/-- `HTTPS_URL.test(image)` -/
def isHttpsUrl (image : Utf16) : Bool :=
  (lit "https://").isPrefixOf image && decide (8 < image.length)
    && (image.drop 8).all (fun c => !isSpace c && c != unit '"')

/-- `appUrl.replace(/\/+$/, '')` -/
def withoutTrailingSlashes (appUrl : Utf16) : Utf16 := appUrl.rdropWhile (fun c => c == unit '/')

/-! ### The document -/

structure AgentRegistrationService where
  name : Utf16
  endpoint : Utf16
  version : Option Utf16
  deriving DecidableEq

/-- The chain id is a safe integer. -/
structure AgentRegistrationInput where
  name : Utf16
  description : Option Utf16
  image : Option Utf16
  appUrl : Utf16
  teamId : Utf16
  chainId : Option (Fin (2 ^ 53))
  identityRegistry : Option Utf16
  agentId : Option Utf16
  services : List AgentRegistrationService

structure AgentRegistrationLink where
  agentRegistry : Utf16
  agentId : Option Utf16
  deriving DecidableEq

structure AgentRegistrationDocument where
  type : Utf16
  name : Utf16
  description : Option Utf16
  image : Option Utf16
  active : Bool
  services : List AgentRegistrationService
  registrations : List AgentRegistrationLink
  supportedTrust : List Utf16
  deriving DecidableEq

def AGENT_REGISTRATION_TYPE : Utf16 :=
  lit "https://eips.ethereum.org/EIPS/eip-8004#registration-v1"

def AGENT_REGISTRATION_MAX_BYTES : ℕ := 4096

inductive PublishError
  | nameRequired
  | tooLarge (length : ℕ)
  deriving DecidableEq

/-- The public surfaces of a workspace. -/
def deskAgentServices (appUrl teamId : Utf16) : List AgentRegistrationService :=
  let base := withoutTrailingSlashes appUrl ++ lit "/api/public/agents/" ++ teamId
  [⟨lit "web", base ++ lit "/profile", none⟩, ⟨lit "a2a", base ++ lit "/agent-card.json", none⟩,
    ⟨lit "x402", base ++ lit "/x402", none⟩]

section

variable (toLowerCase : Utf16 → Utf16)

/-- The link to the identity registry; an empty text and chain zero count as absent. -/
def registrationLinks (input : AgentRegistrationInput) : List AgentRegistrationLink :=
  match input.chainId, input.identityRegistry with
  | some chainId, some identityRegistry =>
    if chainId.val = 0 ∨ identityRegistry = [] then []
    else [⟨lit "eip155:" ++ decimal chainId.val ++ lit ":" ++ toLowerCase identityRegistry,
      input.agentId.filter (fun agentId => agentId ≠ [])⟩]
  | _, _ => []

def buildAgentRegistrationDocument (input : AgentRegistrationInput) :
    Except PublishError AgentRegistrationDocument :=
  match cleanText (some input.name) 120 with
  | none => throw .nameRequired
  | some name =>
    pure {
      type := AGENT_REGISTRATION_TYPE
      name
      description := cleanText input.description 500
      image := input.image.filter isHttpsUrl
      active := true
      services := deskAgentServices input.appUrl input.teamId ++ input.services
      registrations := registrationLinks toLowerCase input
      supportedTrust := [lit "reputation"] }

/-! ### Its text -/

/-- A member that is left out when it is undefined. -/
def optional (key : String) (value : Option Utf16) : TypedMap :=
  match value with
  | none => []
  | some text => [(lit key, .string text)]

def AgentRegistrationService.entries (service : AgentRegistrationService) : TypedMap :=
  [(lit "name", .string service.name), (lit "endpoint", .string service.endpoint)]
    ++ optional "version" service.version

def AgentRegistrationLink.entries (link : AgentRegistrationLink) : TypedMap :=
  (lit "agentRegistry", .string link.agentRegistry) :: optional "agentId" link.agentId

def AgentRegistrationDocument.entries (doc : AgentRegistrationDocument) : TypedMap :=
  [(lit "type", .string doc.type), (lit "name", .string doc.name)]
    ++ optional "description" doc.description ++ optional "image" doc.image
    ++ [(lit "active", .bool doc.active),
      (lit "services", .array (doc.services.map (fun service => .object service.entries))),
      (lit "registrations", .array (doc.registrations.map (fun link => .object link.entries))),
      (lit "supportedTrust", .array (doc.supportedTrust.map .string))]

/-- `JSON.stringify(v)` of a value whose numbers are safe integers. -/
def stringify (v : JSONValue) : Utf16 := v.render quoteUnits (finiteText (fun _ => []))

def toBase64 (input : Utf16) : Utf16 := base64 (utf8 input) ++ base64Padding (utf8 input)

def dataUriPrefix : Utf16 := lit "data:application/json;base64,"

def buildAgentRegistrationDataUri (input : AgentRegistrationInput) : Except PublishError Utf16 := do
  let doc ← buildAgentRegistrationDocument toLowerCase input
  let uri := dataUriPrefix ++ toBase64 (stringify (.object doc.entries))
  if AGENT_REGISTRATION_MAX_BYTES < uri.length then throw (.tooLarge uri.length)
  else pure uri

def isAgentRegistrationDataUri (uri : Utf16) : Bool := dataUriPrefix.isPrefixOf uri

end

end Bufi.Document
