import Bufi.Evidence.Canonical

/-!
# Evidence commitments

A builder checks a record and hashes texts made of its fields: JSON with sorted keys and
canonical amounts, or an id behind a prefix.  `KeccakText` is the hash of the UTF-8 bytes of a
text; no two byte strings have one hash.

JSON texts are well formed, so their bytes determine them.  An id behind a prefix is encoded
as it is, and a surrogate without its partner is replaced there.
-/

namespace Bufi.Evidence

open Bufi.Evm Bufi.Text Bufi.Js

/-- `keccak256(bytes)` as a hexadecimal text, taken to be injective. -/
structure KeccakText where
  keccak256 : Bytes → Utf16
  injective : Function.Injective keccak256
  /-- The text is hexadecimal. -/
  ascii : ∀ b, ∀ c ∈ keccak256 b, c < 0x80

/-- `if (condition) throw new Error(message)` -/
def throwIf (condition : Prop) [Decidable condition] (message : String) : Except String Unit :=
  if condition then throw message else pure ()

/-- An object literal. -/
def obj (fields : List (String × Value)) : Value := .object (fields.map (fun f => (lit f.1, f.2)))

/-- The value of a key; the last entry counts. -/
def getKey (entries : List (Utf16 × Value)) (key : String) : Unknown :=
  (entries.reverse.find? (fun e => e.1 == lit key)).map Prod.snd

/-- `string | null` -/
def nullable : Option Utf16 → Value
  | none => .null
  | some s => .string s

/-- `Boolean(value)` of `string | null` -/
def truthy (value : Option Utf16) : Bool := value.any (fun s => s ≠ [])

/-- `value && typeof value === 'object'` -/
def isObject : Value → Bool
  | .array _ | .object _ => true
  | _ => false

def isNull : Value → Bool
  | .null => true
  | _ => false

/-- `string | number` -/
inductive Amount
  | text (s : Utf16)
  | number (x : Number)

def Amount.value : Amount → Unknown
  | .text s => some (.string s)
  | .number x => some (.number x)

/-- JSON whose objects have every key once and whose numbers are safe integers. -/
structure JsonData where
  value : Value
  distinct : value.DistinctKeys
  safe : SafeNumbers value

inductive ContractLifecycleEvidenceEvent
  | contract_deploy
  | contract_sign
  | contract_fund
  | contract_complete
  | contract_cancel
  deriving DecidableEq

def ContractLifecycleEvidenceEvent.text : ContractLifecycleEvidenceEvent → Utf16
  | .contract_deploy => lit "contract_deploy"
  | .contract_sign => lit "contract_sign"
  | .contract_fund => lit "contract_fund"
  | .contract_complete => lit "contract_complete"
  | .contract_cancel => lit "contract_cancel"

def requiredContractEvent (value : Unknown) : Except String ContractLifecycleEvidenceEvent :=
  match value with
  | some (.string s) =>
    if s = lit "contract_deploy" then pure .contract_deploy
    else if s = lit "contract_sign" then pure .contract_sign
    else if s = lit "contract_fund" then pure .contract_fund
    else if s = lit "contract_complete" then pure .contract_complete
    else if s = lit "contract_cancel" then pure .contract_cancel
    else throw "CRE evidence contract event is invalid"
  | _ => throw "CRE evidence contract event is invalid"

/-- `/^[0-9a-f]{64}$/` -/
def isSha256Hex (s : Utf16) : Bool :=
  s.length = 64 && s.all (fun c => Json.isDigit c || (unit 'a' ≤ c && c ≤ unit 'f'))

/-! ### Records -/

structure ContractLifecycleEvidenceRecord where
  agreementId : Utf16
  teamId : Utf16
  status : Utf16
  agreementHash : Option Utf16
  chainId : Option Number
  totalAmount : Amount
  fundedAmount : Amount
  fundedAt : Option Utf16
  escrowAddress : Option Utf16
  updatedAt : Utf16
  agreement : JsonData

structure ContractCommitments where
  event : ContractLifecycleEvidenceEvent
  entityCommitment : Utf16
  agreementCommitment : Utf16
  stateCommitment : Utf16
  snapshotCommitment : Utf16
  deriving DecidableEq

structure PayrollEvidenceRecord where
  payrollId : Utf16
  teamId : Utf16
  status : Utf16
  payPeriodStart : Utf16
  payPeriodEnd : Utf16
  totalAmountUsdc : Amount
  totalAmountEurc : Amount
  recipientCount : Number
  recipients : JsonData
  executedAt : Option Utf16

structure PayrollCommitments where
  entityCommitment : Utf16
  recordCommitment : Utf16
  recipientCommitment : Utf16
  batchCommitment : Utf16

structure ReportEvidenceRecord where
  reportId : Utf16
  teamId : Utf16
  reportNumber : Utf16
  status : Utf16
  fromDate : Utf16
  toDate : Utf16
  createdAt : Utf16
  transactionsData : JsonData
  financialMetrics : JsonData
  aiAnalysis : JsonData

structure ReportCommitments where
  entityCommitment : Utf16
  reportCommitment : Utf16
  transactionsHash : Utf16
  metricsHash : Utf16
  analysisHash : Utf16
  combinedHash : Utf16

structure ReimbursementEvidenceRecord where
  requestId : Utf16
  teamId : Utf16
  status : Utf16
  currency : Utf16
  subtotal : Amount
  markupPercent : Option Amount
  markupAmount : Amount
  total : Amount
  sentAt : Option Utf16
  paidAt : Option Utf16
  paidTxHash : Option Utf16

inductive ProjectEvidencePhase
  | sent
  | paid
  | closed
  deriving DecidableEq

def ProjectEvidencePhase.text : ProjectEvidencePhase → Utf16
  | .sent => lit "sent"
  | .paid => lit "paid"
  | .closed => lit "closed"

/-- The phases of a reimbursement. -/
inductive ReimbursementPhase
  | sent
  | paid
  deriving DecidableEq

def ReimbursementPhase.text : ReimbursementPhase → Utf16
  | .sent => lit "sent"
  | .paid => lit "paid"

/-- Facts about the items and the settlement, with the phases of a reimbursement or of a
project; a settled total or a count that is missing or null is `none`. -/
structure EvidenceFacts (Phase : Type) where
  phase : Phase
  itemCount : Number
  itemsHash : Utf16
  settledTotal : Option Amount
  settlementCount : Option Number

structure ReimbursementCommitments where
  phase : ReimbursementPhase
  entityCommitment : Utf16
  requestCommitment : Utf16
  itemsHash : Utf16
  settlementCommitment : Utf16

structure ProjectEvidenceRecord where
  projectId : Utf16
  teamId : Utf16
  status : Utf16
  closedAt : Option Utf16

structure ProjectCommitments where
  phase : ProjectEvidencePhase
  entityCommitment : Utf16
  projectCommitment : Utf16
  itemsHash : Utf16
  settlementCommitment : Utf16

/-! ### Builders -/

section

variable (numberText : Number → Utf16) (K : KeccakText)

/-- `keccak256(toHex(text))` -/
def hashText (text : Utf16) : Utf16 := K.keccak256 (utf8 text)

def commitment (value : Value) : Except String Utf16 := do
  pure (hashText K (← stableStringify numberText value))

def buildContractLifecycleEvidenceCommitments (record : ContractLifecycleEvidenceRecord)
    (event : ContractLifecycleEvidenceEvent) : Except String ContractCommitments := do
  let agreementId ← requiredReference (some (.string record.agreementId)) "agreementId"
  let teamId ← requiredReference (some (.string record.teamId)) "teamId"
  let normalizedEvent ← requiredContractEvent (some (.string event.text))
  let status ← requiredReference (some (.string record.status)) "contract status"
  let updatedAt ← requiredReference (some (.string record.updatedAt)) "contract updatedAt"
  throwIf (¬ isObject record.agreement.value)
    "Contract lifecycle agreement evidence is invalid"
  throwIf (record.chainId.any (fun chainId => !chainId.isSafeInteger || chainId.lt (.ofInt 1)))
    "Contract lifecycle chainId is invalid"
  let fundedAmount ← canonicalDecimal numberText record.fundedAmount.value
  let totalAmount ← canonicalDecimal numberText record.totalAmount.value
  throwIf (normalizedEvent = .contract_fund ∧ (¬ truthy record.fundedAt ∨ fundedAmount = lit "0"))
    "Contract lifecycle funding evidence is not ready"
  throwIf (normalizedEvent = .contract_sign ∧ status ≠ lit "pending_sign" ∧ status ≠ lit "active"
      ∧ status ≠ lit "completed")
    "Contract lifecycle signing evidence is not ready"
  throwIf (normalizedEvent = .contract_complete ∧ status ≠ lit "completed")
    "Contract lifecycle completion evidence is not ready"
  throwIf (normalizedEvent = .contract_cancel ∧ status ≠ lit "cancelled" ∧ status ≠ lit "canceled")
    "Contract lifecycle cancellation evidence is not ready"
  throwIf (normalizedEvent = .contract_deploy ∧ ¬ truthy record.escrowAddress
      ∧ status ≠ lit "deploying" ∧ status ≠ lit "active" ∧ status ≠ lit "completed")
    "Contract lifecycle deployment evidence is not ready"
  let agreementCommitment ← commitment numberText K record.agreement.value
  let stateCommitment ← commitment numberText K (obj [
    ("agreementHash", nullable record.agreementHash),
    ("chainId", record.chainId.elim .null .number),
    ("escrowConfigured", .bool (truthy record.escrowAddress)),
    ("fundedAmount", .string fundedAmount),
    ("fundedAt", nullable record.fundedAt),
    ("status", .string status),
    ("totalAmount", .string totalAmount),
    ("updatedAt", .string updatedAt)])
  let snapshotCommitment ← commitment numberText K (obj [
    ("agreementCommitment", .string agreementCommitment),
    ("event", .string normalizedEvent.text),
    ("stateCommitment", .string stateCommitment),
    ("teamCommitment", .string (hashText K (lit "team:" ++ teamId)))])
  pure
    { event := normalizedEvent
      entityCommitment := hashText K (lit "contract:" ++ agreementId)
      agreementCommitment, stateCommitment, snapshotCommitment }

/-- `Object.values(value)` of an array or an object -/
def objectValues : Value → List Value
  | .array l => l
  | .object l => l.map Prod.snd
  | _ => []

def checkRecipient (recipient : Value) : Except String Unit :=
  match recipient with
  | .object candidate => do
    let _ ← canonicalDecimal numberText (getKey candidate "amount")
    let _ ← requiredReference (getKey candidate "walletAddress") "recipient wallet"
  | _ => throw "Payroll evidence recipient is invalid"

def countRecipients (recipients : Value) : Except String ℕ :=
  (objectValues recipients).foldlM (fun counted group =>
    match group with
    | .array group => group.foldlM (fun counted recipient => do
        checkRecipient numberText recipient
        pure (counted + 1)) counted
    | _ => throw "Payroll evidence recipient group is invalid") 0

/-- The commitment to a batch: its id, or the record if it has none. -/
def payrollBatch (recordCommitment : Utf16) (batchId : Option Utf16) : Except String Utf16 :=
  if truthy batchId then do
    let batchId ← requiredReference (some (nullable batchId)) "batchId"
    pure (hashText K (lit "payroll-batch:" ++ batchId))
  else pure (hashText K (lit "payroll-record:" ++ recordCommitment))

def buildPayrollEvidenceCommitments (record : PayrollEvidenceRecord) (batchId : Option Utf16) :
    Except String PayrollCommitments := do
  let payrollId ← requiredReference (some (.string record.payrollId)) "payrollId"
  let teamId ← requiredReference (some (.string record.teamId)) "teamId"
  throwIf (record.status ≠ lit "executed" ∨ ¬ truthy record.executedAt)
    "Payroll evidence is not executed"
  throwIf (¬ record.recipientCount.isSafeInteger ∨ record.recipientCount.lt (.ofInt 1))
    "Payroll evidence recipient count is invalid"
  throwIf (¬ isObject record.recipients.value)
    "Payroll evidence recipients are invalid"
  let countedRecipients ← countRecipients numberText record.recipients.value
  throwIf (Number.ofNat countedRecipients ≠ record.recipientCount)
    "Payroll evidence recipient count does not match recipients"
  let payPeriodStart ← requiredReference (some (.string record.payPeriodStart)) "payPeriodStart"
  let payPeriodEnd ← requiredReference (some (.string record.payPeriodEnd)) "payPeriodEnd"
  let totalAmountUsdc ← canonicalDecimal numberText record.totalAmountUsdc.value
  let totalAmountEurc ← canonicalDecimal numberText record.totalAmountEurc.value
  let executedAt ← requiredReference (some (nullable record.executedAt)) "executedAt"
  let recordCommitment ← commitment numberText K (obj [
    ("payrollId", .string payrollId),
    ("teamId", .string teamId),
    ("payPeriodStart", .string payPeriodStart),
    ("payPeriodEnd", .string payPeriodEnd),
    ("totalAmountUsdc", .string totalAmountUsdc),
    ("totalAmountEurc", .string totalAmountEurc),
    ("recipientCount", .number record.recipientCount),
    ("executedAt", .string executedAt)])
  let recipientCommitment ← commitment numberText K record.recipients.value
  let batchCommitment ← payrollBatch K recordCommitment batchId
  pure
    { entityCommitment := hashText K (lit "payroll:" ++ payrollId)
      recordCommitment, recipientCommitment, batchCommitment }

def buildReportEvidenceCommitments (record : ReportEvidenceRecord) :
    Except String ReportCommitments := do
  let reportId ← requiredReference (some (.string record.reportId)) "reportId"
  let teamId ← requiredReference (some (.string record.teamId)) "teamId"
  throwIf (record.status ≠ lit "completed") "Report evidence is not completed"
  throwIf (isNull record.transactionsData.value ∨ isNull record.financialMetrics.value
      ∨ isNull record.aiAnalysis.value)
    "Report evidence sources are incomplete"
  let transactionsHash ← commitment numberText K record.transactionsData.value
  let metricsHash ← commitment numberText K record.financialMetrics.value
  let analysisHash ← commitment numberText K record.aiAnalysis.value
  let combinedHash ← commitment numberText K (obj [
    ("analysisHash", .string analysisHash),
    ("metricsHash", .string metricsHash),
    ("transactionsHash", .string transactionsHash)])
  let reportNumber ← requiredReference (some (.string record.reportNumber)) "reportNumber"
  let fromDate ← requiredReference (some (.string record.fromDate)) "fromDate"
  let toDate ← requiredReference (some (.string record.toDate)) "toDate"
  let createdAt ← requiredReference (some (.string record.createdAt)) "createdAt"
  let reportCommitment ← commitment numberText K (obj [
    ("reportId", .string reportId),
    ("teamId", .string teamId),
    ("reportNumber", .string reportNumber),
    ("fromDate", .string fromDate),
    ("toDate", .string toDate),
    ("createdAt", .string createdAt),
    ("combinedHash", .string combinedHash)])
  pure
    { entityCommitment := hashText K (lit "financial-report:" ++ reportId)
      reportCommitment, transactionsHash, metricsHash, analysisHash, combinedHash }

/-- The canonical text of an amount that may be null. -/
def nullableDecimal (value : Option Amount) : Except String Value :=
  match value with
  | none => pure .null
  | some value => .string <$> canonicalDecimal numberText value.value

/-- The commitment to a settlement: the total, the count and what the caller adds. -/
def settlement (message : String) (settledTotal : Option Amount) (settlementCount : Option Number)
    (fields : List (String × Value)) : Except String Utf16 :=
  match settledTotal, settlementCount with
  | some settledTotal, some settlementCount => do
    throwIf (¬ settlementCount.isSafeInteger ∨ settlementCount.lt (.ofInt 1)) message
    let settledTotal ← canonicalDecimal numberText settledTotal.value
    commitment numberText K (obj ([
      ("settledTotal", .string settledTotal),
      ("settlementCount", .number settlementCount)] ++ fields))
  | _, _ => throw message

/-- A project that is closed says when. -/
def closedAtOf (closedAt : Option Utf16) (phase : ProjectEvidencePhase) :
    Except String (Option Utf16) :=
  if phase = .closed then some <$> requiredReference (some (nullable closedAt)) "closedAt"
  else pure closedAt

def reimbursementSettlement (record : ReimbursementEvidenceRecord)
    (facts : EvidenceFacts ReimbursementPhase) : Except String Utf16 :=
  if facts.phase = .paid then
    settlement numberText K "Reimbursement settlement evidence is invalid"
      facts.settledTotal facts.settlementCount
      [("paidAt", nullable record.paidAt), ("paidTxHash", nullable record.paidTxHash)]
  else pure (hashText K (lit "reimbursement:settlement:not-paid"))

def projectSettlement (closedAt : Option Utf16) (facts : EvidenceFacts ProjectEvidencePhase) :
    Except String Utf16 :=
  if facts.phase = .paid ∨ facts.phase = .closed then
    settlement numberText K "Project settlement evidence is invalid"
      facts.settledTotal facts.settlementCount [("closedAt", nullable closedAt)]
  else pure (hashText K (lit "project:settlement:not-paid"))

def buildReimbursementEvidenceCommitments (record : ReimbursementEvidenceRecord)
    (facts : EvidenceFacts ReimbursementPhase) : Except String ReimbursementCommitments := do
  let requestId ← requiredReference (some (.string record.requestId)) "requestId"
  let teamId ← requiredReference (some (.string record.teamId)) "teamId"
  throwIf (record.status = lit "draft" ∨ record.status = lit "canceled")
    "Reimbursement evidence is not attestable"
  throwIf (facts.phase = .paid ∧ record.status ≠ lit "paid") "Reimbursement evidence is not paid"
  throwIf (¬ facts.itemCount.isSafeInteger ∨ facts.itemCount.lt (.ofInt 1)
      ∨ ¬ isSha256Hex facts.itemsHash)
    "Reimbursement item evidence is invalid"
  let subtotal ← canonicalDecimal numberText record.subtotal.value
  let markupPercent ← nullableDecimal numberText record.markupPercent
  let markupAmount ← canonicalDecimal numberText record.markupAmount.value
  let total ← canonicalDecimal numberText record.total.value
  let currency ← requiredReference (some (.string record.currency)) "currency"
  let requestCommitment ← commitment numberText K (obj [
    ("requestId", .string requestId),
    ("teamId", .string teamId),
    ("phase", .string facts.phase.text),
    ("itemCount", .number facts.itemCount),
    ("subtotal", .string subtotal),
    ("markupPercent", markupPercent),
    ("markupAmount", .string markupAmount),
    ("total", .string total),
    ("itemsHash", .string facts.itemsHash),
    ("currency", .string currency),
    ("sentAt", nullable record.sentAt)])
  let settlementCommitment ← reimbursementSettlement numberText K record facts
  pure
    { phase := facts.phase
      entityCommitment := hashText K (lit "reimbursement:" ++ requestId)
      requestCommitment, itemsHash := facts.itemsHash, settlementCommitment }

def buildProjectEvidenceCommitments (record : ProjectEvidenceRecord)
    (facts : EvidenceFacts ProjectEvidencePhase) : Except String ProjectCommitments := do
  let projectId ← requiredReference (some (.string record.projectId)) "projectId"
  let teamId ← requiredReference (some (.string record.teamId)) "teamId"
  let status ← requiredReference (some (.string record.status)) "project status"
  throwIf (¬ facts.itemCount.isSafeInteger ∨ facts.itemCount.lt (.ofInt 1)
      ∨ ¬ isSha256Hex facts.itemsHash)
    "Project item evidence is invalid"
  let closedAt ← closedAtOf record.closedAt facts.phase
  let projectCommitment ← commitment numberText K (obj [
    ("projectId", .string projectId),
    ("teamId", .string teamId),
    ("phase", .string facts.phase.text),
    ("status", .string status),
    ("itemCount", .number facts.itemCount),
    ("itemsHash", .string facts.itemsHash),
    ("closedAt", nullable closedAt)])
  let settlementCommitment ← projectSettlement numberText K closedAt facts
  pure
    { phase := facts.phase
      entityCommitment := hashText K (lit "project:" ++ projectId)
      projectCommitment, itemsHash := facts.itemsHash, settlementCommitment }

end

end Bufi.Evidence
