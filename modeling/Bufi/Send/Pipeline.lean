import Bufi.Send.Validate
import Bufi.Evm.Run

/-!
# The send pipeline

The server of `send.ts` as a state machine.  Between two awaits nothing else runs, so
an event is what happens from one await to the next: a request that passes the
checks starts a job, a job leaves its intent for the Gateway, an answer arrives, a
receipt arrives.  The Gateway decides an intent while the server waits, or after it
has given up, and a restart drops everything but the attestation directory and what
is on its way.

What an external call does is in the event: it may throw, refuse, or have its effect
and lose the answer.  `accepted`, `issued`, `received`, `written` and `minted` record what
has happened; no function of the server reads them.
-/

namespace Bufi.Send

open Bufi.Evm Bufi.Js

/-! ### Attestations -/

inductive Dest
  | base
  | arc
  deriving DecidableEq

/-- Where a send from a position is minted. -/
def PositionId.dest : PositionId → Dest
  | evm => .base
  | solana => .arc

structure PendingMint where
  recipient : String
  value : ℤ
  dest : Option Dest
  attestation : Option String
  signature : Option String
  deriving DecidableEq

/-- A text that is there and not empty. -/
def truthyText (x : Option String) : Bool := x.any (fun s => s ≠ "")

/-- An entry for the same recipient and value. -/
def PendingMint.sameAs (p : PendingMint) (recipient : String) (value : ℤ) : Bool :=
  sameText p.recipient recipient && p.value == value

def assertNoPendingMint (pendingMints : List (String × PendingMint)) (recipient : String)
    (value : ℤ) : Except RequestError Unit :=
  match pendingMints.find? (fun e => e.2.sameAs recipient value) with
  | some e => .error (.unminted e.1)
  | none => pure ()

/-! ### Jobs -/

/-- Where a job is: before its intent is out, waiting for the Gateway with the reply
that is on its way, asleep before the intent is sent again, or minting. -/
inductive Stage
  | approvals
  | posted (tries : ℕ) (reply : Option Bool)
  | retrying (tries : ℕ)
  | minting (attestation signature : Option String)
  deriving DecidableEq

structure Job where
  id : String
  recipient : String
  value : ℤ
  source : PositionId
  allowlisted : Bool
  stage : Stage
  deriving DecidableEq

/-- A signed burn intent; it is known by the job that signed it. -/
structure Intent where
  id : String
  recipient : String
  value : ℤ
  deriving DecidableEq

def Job.intent (j : Job) : Intent := ⟨j.id, j.recipient, j.value⟩

structure World where
  /-- The flag of the server. -/
  running : Option String
  /-- The jobs whose promises are pending. -/
  live : List Job
  pendingMints : List (String × PendingMint)
  /-- The attestation directory. -/
  files : List (String × PendingMint)
  /-- How often a job id has been drawn. -/
  drawn : ℕ
  /-- Intents that the Gateway has not decided yet. -/
  inFlight : List Intent
  /-- The intents of all jobs. -/
  issued : List Intent
  accepted : List Intent
  /-- Attestations that the server has got. -/
  received : List (String × PendingMint)
  /-- The jobs whose attestations were written to a file. -/
  written : List String
  /-- The jobs with a successful mint receipt. -/
  minted : List String

def World.initial : World := ⟨none, [], [], [], 0, [], [], [], [], [], []⟩

/-- The answer of the Gateway: its status, whether its text says that the delegate is
not authorized, what the text is parsed to (`none` where that throws), and whether
the file can then be written. -/
structure Answer where
  ok : Bool
  notAuthorized : Bool
  body : Option (Option String × Option String)
  saved : Bool
  deriving DecidableEq

inductive Event
  | request (input : ValidateInput)
  | resume (jobId : String)
  | fail (jobId : String)
  | post (jobId : String)
  | decide (intent : Intent) (accept : Bool)
  | lost (jobId : String)
  | answer (jobId : String) (a : Answer)
  | minted (jobId : String) (removed : Bool)
  | mintFailed (jobId : String)
  | restart (unreadable : String → Bool)

/-! ### The server -/

/-- The requested recipient. -/
def ValidateInput.recipient (i : ValidateInput) : String := i.req.recipient.getD ""

def requireIdle (w : World) : Except RequestError Unit :=
  match w.running with
  | some id => .error (.alreadyRunning id)
  | none => pure ()

/-- `startSend` after its awaits; `ids` are the job ids as they are drawn. -/
def startSend (v : Viem) (ids : ℕ → String) (i : ValidateInput) (w : World) :
    Except RequestError World := do
  let plan ← validateSend v i
  assertNoPendingMint w.pendingMints i.recipient plan.value
  requireIdle w
  let job : Job :=
    ⟨ids w.drawn, i.recipient, plan.value, plan.source, i.allowlisted, .approvals⟩
  pure { w with
    running := some job.id
    live := w.live ++ [job]
    drawn := w.drawn + 1
    issued := w.issued ++ [job.intent] }

/-- The attestation of a job, where it can be resumed. -/
def resumable (w : World) (jobId : String) : Except RequestError (PendingMint × Dest) := do
  let p ← orRevert (w.pendingMints.lookup jobId) .noAttestation
  require (truthyText p.attestation = true ∧ truthyText p.signature = true) .noAttestation
  let dest ← orRevert p.dest .noAttestation
  pure (p, dest)

def Dest.source : Dest → PositionId
  | base => .evm
  | arc => .solana

def resumeMint (jobId : String) (w : World) : Except RequestError World := do
  let (p, dest) ← resumable w jobId
  requireIdle w
  let job : Job :=
    ⟨jobId, p.recipient, p.value, dest.source, true, .minting p.attestation p.signature⟩
  pure { w with running := some jobId, live := w.live ++ [job] }

/-- The `finally` of `track`. -/
def finish (jobId : String) (w : World) : World :=
  { w with running := none, live := w.live.filter (fun j => j.id ≠ jobId) }

def setStage (jobId : String) (stage : Stage) (w : World) : World :=
  { w with live := w.live.map (fun j => if j.id = jobId then { j with stage } else j) }

def jobOf (w : World) (jobId : String) : Option Job := w.live.find? (fun j => j.id = jobId)

/-- `recordPendingMint`; a failed write throws after the map is set. -/
def recordPendingMint (jobId : String) (p : PendingMint) (saved : Bool) (w : World) : World :=
  { w with
    pendingMints := mapSet w.pendingMints jobId p
    files := if truthyText p.attestation && saved then mapSet w.files jobId p else w.files
    received := w.received ++ [(jobId, p)]
    written := if truthyText p.attestation && saved then w.written ++ [jobId] else w.written }

/-- `clearPendingMint`; the file may stay where it cannot be removed. -/
def clearPendingMint (jobId : String) (removed : Bool) (w : World) : World :=
  { w with
    pendingMints := w.pendingMints.filter (fun e => e.1 ≠ jobId)
    files := if removed then w.files.filter (fun e => e.1 ≠ jobId) else w.files }

/-- How many times an intent is sent again when the delegate is not indexed yet. -/
def maxTries : ℕ := 36

/-- A job goes on when the Gateway has answered. -/
def onAnswer (j : Job) (tries : ℕ) (a : Answer) (w : World) : World :=
  if a.ok then
    match a.body with
    | none => finish j.id w
    | some (attestation, signature) =>
      let p : PendingMint := ⟨j.recipient, j.value, some j.source.dest, attestation, signature⟩
      let w := recordPendingMint j.id p a.saved w
      if truthyText attestation && !a.saved then finish j.id w
      else setStage j.id (.minting attestation signature) w
  else if j.source = .solana ∧ a.notAuthorized = true ∧ tries < maxTries then
    setStage j.id (.retrying (tries + 1)) w
  else finish j.id w

/-- The job leaves its intent for the Gateway.  The Solana leg refuses a recipient
that is not allowed before it signs. -/
def onPost (j : Job) (w : World) : Option World :=
  match j.stage with
  | .approvals =>
    if j.source = .solana ∧ j.allowlisted = false then none
    else some { setStage j.id (.posted 0 none) w with inFlight := w.inFlight ++ [j.intent] }
  | .retrying tries =>
    some { setStage j.id (.posted tries none) w with inFlight := w.inFlight ++ [j.intent] }
  | _ => none

/-- The reply to the job that still waits for it. -/
def onDecide (i : Intent) (accept : Bool) (w : World) : World :=
  { w with
    inFlight := w.inFlight.erase i
    accepted := if accept then w.accepted ++ [i] else w.accepted
    live := w.live.map (fun j =>
      match j.stage with
      | .posted tries none => if j.id = i.id then { j with stage := .posted tries (some accept) }
          else j
      | _ => j) }

/-- `loadPendingMints` on an empty memory. -/
def restart (unreadable : String → Bool) (w : World) : World :=
  { w with
    running := none
    live := []
    pendingMints := w.files.filter (fun e => !unreadable e.1) }

/-- One event; `none` is one that cannot happen, or a request that is refused.  The
Gateway says that it accepts only where it does. -/
def pipelineStep (v : Viem) (ids : ℕ → String) (w : World) : Event → Option World
  | .request i => (startSend v ids i w).toOption
  | .resume jobId => (resumeMint jobId w).toOption
  | .fail jobId => do
    let j ← jobOf w jobId
    match j.stage with
    | .approvals | .retrying _ => some (finish jobId w)
    | _ => none
  | .post jobId => do
    let j ← jobOf w jobId
    onPost j w
  | .decide i accept => if i ∈ w.inFlight then some (onDecide i accept w) else none
  | .lost jobId => do
    let j ← jobOf w jobId
    match j.stage with
    | .posted _ _ => some (finish jobId w)
    | _ => none
  | .answer jobId a => do
    let j ← jobOf w jobId
    match j.stage with
    | .posted tries (some reply) =>
      if a.ok = true → reply = true then some (onAnswer j tries a w) else none
    | _ => none
  | .minted jobId removed => do
    let j ← jobOf w jobId
    match j.stage with
    | .minting (some _) (some _) =>
      some { finish jobId (clearPendingMint jobId removed w) with minted := w.minted ++ [jobId] }
    | _ => none
  | .mintFailed jobId => do
    let j ← jobOf w jobId
    match j.stage with
    | .minting _ _ => some (finish jobId w)
    | _ => none
  | .restart unreadable => some (restart unreadable w)

end Bufi.Send
