import Bufi.Send.Pipeline
import Bufi.Js.Address
import Bufi.Text.Utf16

/-!
# The work of a job

What a job of `send.ts` does from its start until its promise settles: the approvals,
the Gateway, the mint, and the handlers of `track`, with the record of the job that the
browser polls.  `Pipeline` has the same jobs as events of a server that may stop; here
one job runs to its end, call by call.

Each external call is an answer that is there or an exception.  An exception leaves
what was written before it, so a job is an `EStateM`.  The texts of the steps are kept
as data, and `receipts` records what `waitForTransactionReceipt` has returned; no
function of the server reads it.
-/

namespace Bufi.Send

open Bufi.Evm Bufi.Js Bufi.Text

/-! ### Records -/

/-- An exception, with the hash of a transaction that failed. -/
structure Thrown where
  message : String
  txHash : Option String := none
  deriving DecidableEq

inductive StepKey
  | approvals
  | attestation
  | mint
  deriving DecidableEq

inductive StepState
  | pending
  | running
  | done
  | failed
  | skipped
  deriving DecidableEq

/-- What the detail of a step says. -/
inductive Detail
  | evmApprovals (signers : List String) (weight threshold : Number) (verdict : String)
      (allowlisted : Bool)
  | frostApprovals (signers : List String) (weight threshold : Number)
  | refusedAllowlist
  | refusedPolicy
  | cannotSign (weight threshold : Number)
  | retrying (seconds : ℕ)
  | attested (status : ℕ)
  | gateway (status : ℕ) (text : String)
  | minted (chain : String) (amount expected : ℤ) (before after : Number)
  | failed (message : Utf16)
  deriving DecidableEq

structure Step where
  state : StepState
  detail : Option Detail := none
  txHash : Option String := none
  link : Option String := none
  deriving DecidableEq

inductive JobStatus
  | running
  | minted
  | refused
  | error
  deriving DecidableEq

inductive Refusal
  | notAllowlisted (recipient : String)
  | coordinator (detail : String)
  | belowThreshold (signers : List String) (weight threshold : Number)
  | gateway (text : String)
  deriving DecidableEq

/-- The error of a job: the message, and whether it says that the attestation is saved. -/
structure JobError where
  message : Utf16
  saved : Bool
  deriving DecidableEq

/-- `Job` of the types that the server and the browser share. -/
structure JobRecord where
  id : String
  source : PositionId
  destinationChain : String
  status : JobStatus
  steps : StepKey → Step
  refusal : Option Refusal := none
  error : Option JobError := none
  resumable : Option Bool := none
  recipientBalance : Option (Number × Number) := none

/-! ### Receipts -/

inductive ReceiptStatus
  | success
  | reverted
  deriving DecidableEq

structure ReceiptLog where
  address : String
  topics : List String
  data : String
  deriving DecidableEq

structure Receipt where
  status : ReceiptStatus
  logs : List ReceiptLog
  deriving DecidableEq

def transferTopic : String := "0xddf252ad1be2c89b69c2b068fc378daa952ba7f163c4a11628f55a4df523b3ef"

/-- The recipient as a topic: its digits, padded to 32 bytes. -/
def recipientTopic (recipient : String) : List Char :=
  let text := lowerCase recipient
  let digits := if text.take 2 = ['0', 'x'] then text.drop 2 else text
  ['0', 'x'] ++ List.replicate (64 - digits.length) '0' ++ digits

/-- A `Transfer` of the token to the recipient. -/
def isTransferTo (token recipient : String) (l : ReceiptLog) : Bool :=
  lowerCase l.address == lowerCase token
    && l.topics[0]?.map lowerCase == some transferTopic.toList
    && l.topics[2]?.map lowerCase == some (recipientTopic recipient)

/-- The amount of a log; `BigInt("0x")` would throw. -/
def amountOf (l : ReceiptLog) : Option ℤ := if l.data = "0x" then some 0 else bigInt l.data

def mintedAmountFromLogs (logs : List ReceiptLog) (token recipient : String) :
    Except Thrown ℤ :=
  logs.foldlM (fun total l =>
    if isTransferTo token recipient l then
      match amountOf l with
      | some amount => pure (total + amount)
      | none => throw ⟨"Cannot convert " ++ l.data ++ " to a BigInt", none⟩
    else pure total) 0

/-! ### The state of a job -/

structure Desk where
  world : World
  job : JobRecord
  receipts : List Receipt

/-- A computation of the server, with what it has written where it throws. -/
abbrev Work := EStateM Thrown Desk

/-- An external call. -/
def reply {α : Type} (x : Except Thrown α) : Work α :=
  match x with
  | .ok a => pure a
  | .error e => throw e

def modifyJob (f : JobRecord → JobRecord) : Work Unit :=
  modify (fun d => { d with job := f d.job })

def modifyWorld (f : World → World) : Work Unit :=
  modify (fun d => { d with world := f d.world })

def modifyStep (key : StepKey) (f : Step → Step) : Work Unit :=
  modifyJob (fun j => { j with steps := Function.update j.steps key (f (j.steps key)) })

def refuse (key : StepKey) (text : Refusal) (detail : Detail) : Work Unit := do
  modifyStep key (fun s => { s with state := .failed, detail := some detail })
  modifyJob (fun j => { j with status := .refused, refusal := some text })

structure Ctx where
  value : ℤ
  weight : Number
  allowlisted : Bool
  thresholdWeight : Number
  signers : List String
  recipient : String

/-! ### The mint -/

/-- What the destination chain and the disk answer to one mint.  `balance i` is the
`i`-th reading of the balance after the receipt. -/
structure MintAnswers where
  feePayer : Except Thrown Unit
  before : Except Thrown ℕ
  writeContract : Option String → Option String → Except Thrown String
  receipt : String → Except Thrown Receipt
  balance : ℕ → Except Thrown ℕ
  rmSync : Except Thrown Unit

/-- USDC on the destination chain. -/
def Dest.token : Dest → String
  | base => "0x036CbD53842c5426634e7929541eC2318f3dCF7e"
  | arc => "0x3600000000000000000000000000000000000000"

/-- How often the balance is read after the receipt. -/
def maxPolls : ℕ := 10

/-- The balance is read until it has changed. -/
def poll (balance : ℕ → Except Thrown ℕ) (before : ℕ) : ℕ → ℕ → ℕ → Except Thrown ℕ
  | 0, _, after => pure after
  | turns + 1, i, after => do
    if after = before then
      let after ← balance i
      poll balance before turns (i + 1) after
    else pure after

structure MintResult where
  hash : String
  before : ℕ
  after : ℕ
  minted : ℤ

def gatewayMint (a : MintAnswers) (dest : Dest) (attestation operatorSig : Option String)
    (recipient : String) : Work MintResult := do
  reply a.feePayer
  let before ← reply a.before
  let hash ← reply (a.writeContract attestation operatorSig)
  let receipt ← reply (a.receipt hash)
  modify (fun d => { d with receipts := d.receipts ++ [receipt] })
  if receipt.status ≠ .success then throw ⟨"gatewayMint reverted: " ++ hash, some hash⟩
  let minted ← reply (mintedAmountFromLogs receipt.logs dest.token recipient)
  let after ← reply (poll a.balance before maxPolls 0 before)
  pure ⟨hash, before, after, minted⟩

def explorer (chain : String) : String :=
  if chain = "Base Sepolia" then "https://sepolia.basescan.org/tx/"
  else "https://testnet.arcscan.app/tx/"

/-- The entry is dropped from the map, and then the file is removed. -/
def clearMint (jobId : String) (rmSync : Except Thrown Unit) : Work Unit := do
  modifyWorld (clearPendingMint jobId rmSync.toBool)
  reply rmSync

/-- The balance in USDC. -/
def usdcOf (n : ℕ) : Number := perMillion (numberOf n)

/-- `mint` when the transaction has a receipt. -/
def recordMint (ctx : Ctx) (rmSync : Except Thrown Unit) (m : MintResult) : Work Unit := do
  let d ← get
  clearMint d.job.id rmSync
  modifyJob (fun j => { j with recipientBalance := some (usdcOf m.before, usdcOf m.after) })
  modifyStep .mint (fun s => { s with
    txHash := some m.hash
    link := some (explorer d.job.destinationChain ++ m.hash)
    state := .done
    detail := some (.minted d.job.destinationChain m.minted ctx.value (usdcOf m.before)
      (usdcOf m.after)) })
  modifyJob (fun j => { j with status := .minted })

def mint (a : MintAnswers) (ctx : Ctx) (dest : Dest) (attestation signature : Option String) :
    Work Unit := do
  modifyStep .mint (fun s => { s with state := .running })
  let m ← gatewayMint a dest attestation signature ctx.recipient
  recordMint ctx a.rmSync m

/-! ### The legs -/

structure TransferResponse where
  ok : Bool
  status : ℕ
  text : String
  deriving DecidableEq

inductive FrostResult
  | signed (signature : String)
  | belowThreshold (detail : String)
  | policy (detail : String)
  deriving DecidableEq

/-- What is answered to a job before its mint.  `postTransfer i` answers the `i`-th
post; `parse` is the attestation and the signature of the text of a response. -/
structure LegAnswers where
  buildEvmIntent : Except Thrown Unit
  evmContractSignature : Except Thrown Unit
  localIsValidSignature : Except Thrown String
  solanaSlot : Except Thrown ℕ
  makeSolanaIntent : Except Thrown Unit
  frostSign : Except Thrown FrostResult
  postTransfer : ℕ → Except Thrown TransferResponse
  parse : String → Except Thrown (Option String × Option String)
  writeFile : Except Thrown Unit

/-- The attestation is kept; the file is written if there is one. -/
def accepted (l : LegAnswers) (ctx : Ctx) (dest : Dest) (text : String) :
    Work (Option String × Option String) := do
  let (attestation, signature) ← reply (l.parse text)
  let d ← get
  modifyWorld (recordPendingMint d.job.id
    ⟨ctx.recipient, ctx.value, some dest, attestation, signature⟩ l.writeFile.toBool)
  if truthyText attestation then reply l.writeFile
  pure (attestation, signature)

/-- A job with a response of the Gateway. -/
def onResponse (l : LegAnswers) (a : MintAnswers) (ctx : Ctx) (dest : Dest)
    (r : TransferResponse) : Work Unit := do
  if r.ok then
    let (attestation, signature) ← accepted l ctx dest r.text
    modifyStep .attestation (fun s => { s with
      state := .done, detail := some (.attested r.status) })
    mint a ctx dest attestation signature
  else refuse .attestation (.gateway r.text) (.gateway r.status r.text)

def runEvm (l : LegAnswers) (a : MintAnswers) (ctx : Ctx) : Work Unit := do
  modifyStep .approvals (fun s => { s with state := .running })
  reply l.buildEvmIntent
  reply l.evmContractSignature
  let verdict ← reply l.localIsValidSignature
  modifyStep .approvals (fun s => { s with
    state := if ctx.thresholdWeight.le ctx.weight then .done else .failed
    detail := some (.evmApprovals ctx.signers ctx.weight ctx.thresholdWeight verdict
      ctx.allowlisted) })
  modifyStep .attestation (fun s => { s with state := .running })
  let r ← reply (l.postTransfer 0)
  onResponse l a ctx .base r

/-- `/not authorized/i` -/
def notAuthorized (text : String) : Bool :=
  (lowerCase text).tails.any (fun t => "not authorized".toList.isPrefixOf t)

/-- The intent is posted again while the delegate is not indexed. -/
def repost (l : LegAnswers) : ℕ → ℕ → TransferResponse → Work TransferResponse
  | 0, _, r => pure r
  | turns + 1, i, r => do
    if r.ok = false ∧ notAuthorized r.text = true then
      modifyStep .attestation (fun s => { s with detail := some (.retrying ((i + 1) * 5)) })
      let r ← reply (l.postTransfer (i + 1))
      repost l turns (i + 1) r
    else pure r

def runSolana (l : LegAnswers) (a : MintAnswers) (ctx : Ctx) : Work Unit := do
  modifyStep .approvals (fun s => { s with state := .running })
  if ctx.allowlisted = false then
    refuse .approvals (.notAllowlisted ctx.recipient) .refusedAllowlist
  else
    let _ ← reply l.solanaSlot
    reply l.makeSolanaIntent
    let signed ← reply l.frostSign
    match signed with
    | .policy detail => refuse .approvals (.coordinator detail) .refusedPolicy
    | .belowThreshold _ =>
      refuse .approvals (.belowThreshold ctx.signers ctx.weight ctx.thresholdWeight)
        (.cannotSign ctx.weight ctx.thresholdWeight)
    | .signed _ =>
      modifyStep .approvals (fun s => { s with
        state := .done
        detail := some (.frostApprovals ctx.signers ctx.weight ctx.thresholdWeight) })
      modifyStep .attestation (fun s => { s with state := .running })
      let first ← reply (l.postTransfer 0)
      let r ← repost l maxTries 0 first
      onResponse l a ctx .arc r

/-! ### Until the promise settles -/

/-- The first step that is running. -/
def currentStep (j : JobRecord) : Option StepKey :=
  [StepKey.approvals, .attestation, .mint].find? (fun key => (j.steps key).state = .running)

/-- `short` of the server; the slice may split a surrogate pair. -/
def short (s : String) (n : ℕ) : Utf16 :=
  if n < (units s).length then (units s).take n ++ lit "…" else units s

/-- The `catch` of `track`. -/
def onError (e : Thrown) (d : Desk) : Desk :=
  let message := short e.message 600
  let saved := truthyText ((d.world.pendingMints.lookup d.job.id).bind (fun p => p.attestation))
  let steps := match currentStep d.job with
    | some key =>
      let s := d.job.steps key
      Function.update d.job.steps key { s with
        state := .failed
        detail := some (.failed message)
        txHash := if truthyText e.txHash then e.txHash else s.txHash }
    | none => d.job.steps
  { d with job := { d.job with
      status := .error
      error := some ⟨message, saved⟩
      steps := steps
      resumable := if saved then some true else d.job.resumable } }

/-- The `finally` of `track`. -/
def onSettled (d : Desk) : Desk :=
  { d with
    world := finish d.job.id d.world
    job := { d.job with steps := fun key =>
      let s := d.job.steps key
      if s.state = .pending then { s with state := .skipped } else s } }

def track (work : Work Unit) (d : Desk) : Desk :=
  match work.run d with
  | .ok _ d => onSettled d
  | .error e d => onSettled (onError e d)

/-- Where a send from a position is minted, as the browser shows it. -/
def PositionId.destinationChain : PositionId → String
  | evm => "Base Sepolia"
  | solana => "Arc testnet"

/-- The record of a new job. -/
def newRecord (jobId : String) (source : PositionId) : JobRecord where
  id := jobId
  source := source
  destinationChain := source.destinationChain
  status := .running
  steps := fun _ => { state := .pending }

/-- The record of a job that is resumed, the old one where there is one. -/
def resumedRecord (jobId : String) (dest : Dest) (old : Option JobRecord) : JobRecord :=
  let j := old.getD { newRecord jobId dest.source with
    steps := fun key => { state := if key = .mint then .pending else .done } }
  { j with id := jobId, status := .running, error := none, resumable := some false }

/-- How a job begins: a request, or the mint of an earlier job, with its record if the
server still has one. -/
inductive Start
  | send (input : ValidateInput)
  | resume (jobId : String) (old : Option JobRecord)

/-- A job from its start until its work has settled. -/
def runJob (v : Viem) (ids : ℕ → String) (l : LegAnswers) (a : MintAnswers) (w : World) :
    Start → Except RequestError Desk
  | .send i => do
    let plan ← validateSend v i
    let world ← startSend v ids i w
    let ctx : Ctx :=
      ⟨plan.value, plan.weight, i.allowlisted, i.pol.thresholdWeight, plan.signers, i.recipient⟩
    let d : Desk := ⟨world, newRecord (ids w.drawn) plan.source, []⟩
    pure (track (match plan.source with
      | .evm => runEvm l a ctx
      | .solana => runSolana l a ctx) d)
  | .resume jobId old => do
    let (p, dest) ← resumable w jobId
    let world ← resumeMint jobId w
    let ctx : Ctx := ⟨p.value, .ofNat 0, true, .ofNat 0, [], p.recipient⟩
    pure (track (mint a ctx dest p.attestation p.signature)
      ⟨world, resumedRecord jobId dest old, []⟩)

end Bufi.Send
