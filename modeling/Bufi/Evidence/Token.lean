import Bufi.Evidence.Binding

/-!
# Evidence tokens

A token is a reference to evidence with a nonce and a lifetime, written as canonical JSON and
sealed.  Sealing is the caller's: `Sealing` is a pair of functions of which the second undoes
the first.  What is opened is any text that the seal gives back, so every check is made again.

A JavaScript object is the function that gives the value of a property.  `validateReference`
has no case for a kind that is none of the six, and gives `undefined` there: `none`.
-/

namespace Bufi.Evidence

open Bufi.Text Bufi.Js Bufi.Logic

def TOKEN_PREFIX : Utf16 := lit "bufi_cre_evidence_v1."

def TOKEN_AUDIENCE : Utf16 := lit "bufi-cre-evidence"

def MAX_TOKEN_LENGTH : ℕ := 8192

def MAX_TTL_SECONDS : ℤ := 900

def CLOCK_SKEW_SECONDS : ℤ := 30

/-! ### References -/

inductive CreEvidenceReference
  | paymentScore (entityId teamId : Utf16)
  | contract (entityId teamId : Utf16) (event : ContractLifecycleEvidenceEvent)
  | payroll (entityId teamId : Utf16) (batchId : Option Utf16)
  | reimbursement (entityId teamId : Utf16) (phase : ReimbursementPhase)
  | report (entityId teamId : Utf16)
  | project (entityId teamId : Utf16) (phase : ProjectEvidencePhase)
  deriving DecidableEq

/-- The properties of a reference. -/
def CreEvidenceReference.fields : CreEvidenceReference → List (String × Value)
  | paymentScore entityId teamId =>
    [("kind", .string (lit "payment-score")), ("entityId", .string entityId),
      ("teamId", .string teamId)]
  | contract entityId teamId event =>
    [("kind", .string (lit "contract")), ("entityId", .string entityId),
      ("teamId", .string teamId), ("event", .string event.text)]
  | payroll entityId teamId batchId =>
    [("kind", .string (lit "payroll")), ("entityId", .string entityId),
      ("teamId", .string teamId)] ++ batchId.toList.map (fun id => ("batchId", .string id))
  | reimbursement entityId teamId phase =>
    [("kind", .string (lit "reimbursement")), ("entityId", .string entityId),
      ("teamId", .string teamId), ("phase", .string phase.text)]
  | report entityId teamId =>
    [("kind", .string (lit "report")), ("entityId", .string entityId), ("teamId", .string teamId)]
  | project entityId teamId phase =>
    [("kind", .string (lit "project")), ("entityId", .string entityId),
      ("teamId", .string teamId), ("phase", .string phase.text)]

/-- `value === text` -/
def isText (value : Unknown) (text : Utf16) : Bool :=
  match value with
  | some (.string s) => s = text
  | _ => false

/-- `Boolean(value)` -/
def toBoolean : Unknown → Bool
  | none | some .null => false
  | some (.bool b) => b
  | some (.number x) => !x.eq (.ofInt 0) && x.eq x
  | some (.string s) => s ≠ []
  | some (.array _) | some (.object _) => true

def isHexDigit (c : CodeUnit) : Bool := (Json.hexOf c).isSome

/-- `/^[0-9a-f]{8}-[0-9a-f]{4}-[0-9a-f]{4}-[0-9a-f]{4}-[0-9a-f]{12}$/i` -/
def isUuid (s : Utf16) : Bool :=
  s.length = 36 && s.zipIdx.all (fun (c, i) =>
    if i = 8 ∨ i = 13 ∨ i = 18 ∨ i = 23 then c == unit '-' else isHexDigit c)

def validateBatchId (batchId : Unknown) : Except String (Option Utf16) :=
  if toBoolean batchId then some <$> requiredReference batchId "batchId" else pure none

def validateReimbursementPhase (phase : Unknown) : Except String ReimbursementPhase :=
  if isText phase (lit "sent") then pure .sent
  else if isText phase (lit "paid") then pure .paid
  else throw "CRE evidence reimbursement phase is invalid"

def validateProjectPhase (phase : Unknown) : Except String ProjectEvidencePhase :=
  if isText phase (lit "sent") then pure .sent
  else if isText phase (lit "paid") then pure .paid
  else if isText phase (lit "closed") then pure .closed
  else throw "CRE evidence project phase is invalid"

/-- The cases of `validateReference`. -/
def validateKind (reference : String → Unknown) (entityId teamId : Utf16) :
    Except String (Option CreEvidenceReference) :=
  let kind := reference "kind"
  if isText kind (lit "payment-score") then do
    throwIf (entityId ≠ teamId ∨ ¬ isUuid teamId) "CRE payment score workspace is invalid"
    pure (some (.paymentScore entityId teamId))
  else if isText kind (lit "contract") then
    (fun event => some (.contract entityId teamId event)) <$>
      requiredContractEvent (reference "event")
  else if isText kind (lit "payroll") then
    (fun batchId => some (.payroll entityId teamId batchId)) <$>
      validateBatchId (reference "batchId")
  else if isText kind (lit "reimbursement") then
    (fun phase => some (.reimbursement entityId teamId phase)) <$>
      validateReimbursementPhase (reference "phase")
  else if isText kind (lit "report") then pure (some (.report entityId teamId))
  else if isText kind (lit "project") then
    (fun phase => some (.project entityId teamId phase)) <$>
      validateProjectPhase (reference "phase")
  else pure none

def validateReference (reference : String → Unknown) :
    Except String (Option CreEvidenceReference) := do
  let entityId ← requiredReference (reference "entityId") "entityId"
  let teamId ← requiredReference (reference "teamId") "teamId"
  validateKind reference entityId teamId

/-! ### Tokens -/

/-- A time in milliseconds that a `Date` may have. -/
structure Time where
  ms : ℤ
  bounded : |ms| ≤ 8640000000000000

/-- A `Date`: an invalid one, or one with its time. -/
inductive Date
  | invalid
  | at (time : Time)

/-- `Math.floor(date.getTime() / 1_000)` -/
def Date.seconds : Date → Number
  | invalid => .nan
  | .at time => (Number.round ((time.ms : ℚ) / 1000)).floor

structure CreEvidenceClaims where
  reference : Option CreEvidenceReference
  audience : Utf16
  expiresAt : Number
  issuedAt : Number
  nonce : Utf16
  version : Number
  deriving DecidableEq

def CreEvidenceClaims.fields (claims : CreEvidenceClaims) : List (String × Value) :=
  claims.reference.elim [] CreEvidenceReference.fields ++ [
    ("audience", .string claims.audience),
    ("expiresAt", .number claims.expiresAt),
    ("issuedAt", .number claims.issuedAt),
    ("nonce", .string claims.nonce),
    ("version", .number claims.version)]

structure CreEvidenceTokenOptions where
  now : Option Date
  ttlSeconds : Option Number
  nonce : Option Utf16

/-- `new Date()` and `crypto.randomUUID()` -/
structure Host where
  now : Date
  randomUUID : Utf16

/-- The claims of a token. -/
def createClaims (host : Host) (reference : String → Unknown) (options : CreEvidenceTokenOptions) :
    Except String CreEvidenceClaims := do
  let normalized ← validateReference reference
  let issuedAt := (options.now.getD host.now).seconds
  let ttlSeconds := options.ttlSeconds.getD (.ofInt 300)
  throwIf (¬ ttlSeconds.isSafeInteger ∨ ttlSeconds.lt (.ofInt 1)
      ∨ (Number.ofInt MAX_TTL_SECONDS).lt ttlSeconds)
    "CRE evidence token TTL is invalid"
  let nonce ← requiredReference (some (.string (options.nonce.getD host.randomUUID))) "nonce"
  pure
    { reference := normalized
      audience := TOKEN_AUDIENCE
      expiresAt := issuedAt.plus ttlSeconds
      issuedAt, nonce
      version := .ofInt 1 }

section

variable (numberText : Number → Utf16)

def createCreEvidenceToken (host : Host) (sealText : Utf16 → Except String Utf16)
    (reference : String → Unknown) (options : CreEvidenceTokenOptions) : Except String Utf16 := do
  let claims ← createClaims host reference options
  let sealed ← sealText (← stableStringify numberText (obj claims.fields))
  let token := TOKEN_PREFIX ++ sealed
  throwIf (MAX_TOKEN_LENGTH < token.length) "CRE evidence token is too large"
  pure token

end

/-- `JSON.parse` of what was unsealed; only an object is accepted. -/
def parseClaims (plaintext : Except String Utf16) : Except String (String → Unknown) :=
  match plaintext with
  | .error _ => throw "CRE evidence token is invalid"
  | .ok plaintext =>
    match jsonParse plaintext with
    | some (.object entries) => pure (getKey entries)
    | _ => throw "CRE evidence token is invalid"

/-- `value === n` -/
def isNumber (value : Unknown) (n : ℤ) : Bool :=
  match value with
  | some (.number x) => x.eq (.ofInt n)
  | _ => false

def openCreEvidenceToken (unsealText : Utf16 → Except String Utf16) (token : Utf16) (now : Date) :
    Except String CreEvidenceClaims := do
  throwIf (¬ TOKEN_PREFIX.isPrefixOf token ∨ token.length ≤ TOKEN_PREFIX.length
      ∨ MAX_TOKEN_LENGTH < token.length)
    "CRE evidence token is invalid"
  let claims ← parseClaims (unsealText (token.drop TOKEN_PREFIX.length))
  throwIf (¬ isNumber (claims "version") 1 ∨ ¬ isText (claims "audience") TOKEN_AUDIENCE)
    "CRE evidence token is invalid"
  let issuedAt ← requiredInteger (claims "issuedAt") "issuedAt"
  let expiresAt ← requiredInteger (claims "expiresAt") "expiresAt"
  let current := now.seconds
  throwIf ((current.plus (.ofInt CLOCK_SKEW_SECONDS)).lt issuedAt ∨ expiresAt.le current)
    "CRE evidence token is expired"
  throwIf (expiresAt.le issuedAt ∨ (Number.ofInt MAX_TTL_SECONDS).lt (expiresAt.minus issuedAt))
    "CRE evidence token lifetime is invalid"
  let nonce ← requiredReference (claims "nonce") "nonce"
  let reference ← validateReference claims
  pure
    { reference, audience := TOKEN_AUDIENCE, expiresAt, issuedAt, nonce, version := .ofInt 1 }

end Bufi.Evidence
