import Bufi.Js.Address
import Bufi.Js.Async
import Bufi.Js.Number

/-!
# The signer of a Ledger swap

`createLedgerSwapSigner` of `ledger-native.service.ts` returns an object with four functions
that share seven variables.  A phase below is an `await` of one of them, with the local
variables that are used after it.  What is awaited (the session check, the RPC node, the
device) may resolve or throw in any way; `assertReview`, which looks at the clock, is an
outcome too.  `assertOwner` and `assertChain` await more than once but touch none of the
variables, so each is one `await` here.

A transaction request has the fields that are compared with the reviewed step; the nonce, the
gas and the fees are in `other`.  Connections are numbered, to tell one from another.
-/

namespace Bufi.LedgerSwap

open Bufi.Js

/-! ### The reviewed swap -/

structure LedgerSwapTransaction where
  to' : String
  data : String
  value : Option ℤ
  deriving DecidableEq

/-- A reviewed transaction. -/
structure SwapStep where
  to' : String
  data : String
  value : ℤ
  deriving DecidableEq

/-- A transaction that viem has prepared. -/
structure Prepared where
  chainId : ℤ
  to' : Option String
  data : Option String
  value : Option ℤ
  type : Option String
  other : String
  deriving DecidableEq

structure Signature where
  r : String
  s : String
  v : Number
  deriving DecidableEq

/-- Functions of viem; `none` is a call that throws. -/
structure Viem (D : Type) where
  serializeTransaction : Prepared → Option String
  serializeSigned : Prepared → String → String → ℤ → Option String
  keccak256 : String → String
  hashTypedData : D → Option String

/-- What was reviewed: transactions, or an order with its hash. -/
structure Swap (D : Type) where
  owner : String
  chainId : ℤ
  steps : List SwapStep
  expectedOrder : Option (D × String)

/-! ### Variables, calls and effects -/

structure Connection where
  id : ℕ
  address : String
  deriving DecidableEq

structure Pending where
  hash : String
  step : ℕ
  deriving DecidableEq

/-- The variables; `attempted` is `none` for -1, and `opened` counts the connections. -/
structure Vars where
  connection : Option Connection
  busy : Bool
  closed : Bool
  nextStep : ℕ
  attempted : Option ℕ
  orderAttempted : Bool
  pending : Option Pending
  opened : ℕ
  deriving DecidableEq

def Vars.initial : Vars := ⟨none, false, false, 0, none, false, none, 0⟩

inductive Request (D : Type)
  | sendTransaction (tx : LedgerSwapTransaction)
  | signTypedData (data : D)
  | resumeTransaction
  | close
  deriving DecidableEq

/-- What is thrown; `external` is what something else has thrown. -/
inductive SwapError
  | wrongAccount
  | closedOrBusy
  | closed
  | receiptMismatch
  | reverted
  | notNext
  | alreadyRequested
  | preparedChanged
  | invalidRecoveryId
  | wrongSigner
  | hashMismatch
  | wrongOrder
  | orderRequested
  | awaiting
  | external
  deriving DecidableEq

def SwapError.text : SwapError → Option String
  | wrongAccount => some "Connect the Ledger account registered for this Personal wallet."
  | closedOrBusy => some "The Ledger swap is closed or already awaiting approval."
  | closed => some "The Ledger swap was closed. Review it again before signing."
  | receiptMismatch => some "The swap receipt does not match the submitted transaction."
  | reverted => some "The Ledger swap transaction reverted."
  | notNext => some "Only the next transaction in this reviewed swap may be signed."
  | alreadyRequested =>
    some "This swap step was already requested. Check its transaction before retrying."
  | preparedChanged => some "The prepared transaction changed the reviewed swap."
  | invalidRecoveryId => some "Ledger returned an invalid transaction recovery id."
  | wrongSigner => some "The swap signature does not match the registered Ledger."
  | hashMismatch =>
    some "The RPC returned a different transaction hash. Check the saved transaction."
  | wrongOrder => some "Only the original reviewed swap order may be signed."
  | orderRequested =>
    some "This swap order was already requested. Review a fresh quote to retry."
  | awaiting => some "The Ledger swap is still awaiting approval."
  | external => none

inductive Result
  | throws (e : SwapError)
  | hash (h : String)
  | signature (s : String)
  | nothing
  deriving DecidableEq

/-- What a call that has entered is for. -/
inductive Job (D : Type)
  | send (expected : SwapStep)
  | order (data : D)
  deriving DecidableEq

inductive Phase (D : Type)
  /-- In `enter`. -/
  | owner (j : Job D)
  | chain (j : Job D)
  | entered (j : Job D)
  /-- In `device`: the device is being connected, or a wrong one closed. -/
  | connecting (j : Job D)
  | rejecting (j : Job D)
  | ready (j : Job D) (ledger : Connection)
  /-- In `sendTransaction`. -/
  | preparing (expected : SwapStep) (ledger : Connection)
  | signing (transaction : Prepared)
  | recovering (transaction : Prepared) (raw : String)
  | checkingOwner (transaction : Prepared) (raw : String)
  | checkingChain (transaction : Prepared) (raw : String)
  | sending
  /-- In `confirmPending`. -/
  | receipt (current : Pending)
  /-- In `signTypedData`. -/
  | ordering
  | recoveringOrder (signature : String)
  | checkingOrder (signature : String)
  /-- In `resumeTransaction`. -/
  | resumeOwner
  | resumeChain
  /-- An inner function has ended; `busy` is released next. -/
  | leaving (r : Result)
  | closing
  | done (r : Result)
  deriving DecidableEq

/-- How what is awaited settles; `review` is whether `assertReview` passes afterwards. -/
inductive Outcome
  | throws
  | passes (review : Bool)
  | connected (address : String)
  | prepared (transaction : Prepared)
  | signed (signature : Signature)
  | recovered (address : String) (review : Bool)
  | sent (hash : String)
  | ordered (signature : String)
  | receipt (transactionHash : String) (success : Bool)
  deriving DecidableEq

/-- What the device, the node and the callers see. -/
inductive Effect (D : Type)
  | opened (connection : ℕ)
  | closed (connection : ℕ)
  | signRequest (transaction : Prepared)
  | orderRequest (data : D)
  | broadcast (transaction : Prepared) (raw : String)
  /-- A receipt of a broadcast transaction was seen. -/
  | receipt (hash : String) (success : Bool)
  /-- The signature of the order is returned. -/
  | returned (signature : String)
  | closeInvoked
  deriving DecidableEq

/-! ### The functions -/

section

variable {D : Type} (V : Viem D) (S : Swap D) (v : Vars)

abbrev Next (D : Type) : Type := Option (Vars × Phase D × List (Effect D))

def goto (p : Phase D) : Next D := some (v, p, [])

/-- The call ends, and `busy` is released. -/
def leave (r : Result) : Next D := some ({ v with busy := false }, .done r, [])

def sameText (s t : String) : Bool := lowerCase s == lowerCase t

/-- `device`, where there is a connection. -/
def withConnection (j : Job D) (c : Connection) (opened : List (Effect D)) : Next D :=
  if sameText c.address S.owner then some (v, .ready j c, opened)
  else some (v, .rejecting j, opened ++ [.closed c.id])

/-- The step or the order has been tried. -/
def mark : Job D → Vars
  | .send _ => { v with attempted := some v.nextStep }
  | .order _ => { v with orderAttempted := true }

/-- `enter`, up to its first `await`. -/
def enter (j : Job D) (review : Bool) : Next D :=
  if v.closed = true ∨ v.busy = true then goto v (.done (.throws .closedOrBusy))
  else if review then some ({ v with busy := true }, .owner j, [])
  else goto v (.done (.throws .external))

/-- The transaction is the reviewed one. -/
def Prepared.sends (t : Prepared) (expected : SwapStep) : Bool :=
  t.to'.any (sameText expected.to') && t.data.any (sameText expected.data)
    && t.value == some expected.value

def sendTransaction (tx : LedgerSwapTransaction) (review : Bool) : Next D :=
  match S.steps[v.nextStep]? with
  | none => goto v (.done (.throws .notNext))
  | some expected =>
    if sameText tx.to' expected.to' ∧ sameText tx.data expected.data
        ∧ tx.value.getD 0 = expected.value then
      if v.pending.isSome ∨ v.attempted = some v.nextStep then
        goto v (.done (.throws .alreadyRequested))
      else enter v (.send expected) review
    else goto v (.done (.throws .notNext))

def signTypedData (data : D) (review : Bool) : Next D :=
  match S.expectedOrder with
  | none => goto v (.done (.throws .wrongOrder))
  | some (expected, expectedHash) =>
    match V.hashTypedData data with
    | none => goto v (.done (.throws .external))
    | some hash =>
      if hash ≠ expectedHash then goto v (.done (.throws .wrongOrder))
      else if v.orderAttempted then goto v (.done (.throws .orderRequested))
      else enter v (.order expected) review

def resumeTransaction : Next D :=
  if v.busy then goto v (.done (.throws .awaiting))
  else if v.pending.isNone then goto v (.done .nothing)
  else some ({ v with busy := true }, .resumeOwner, [])

def close : Next D :=
  match v.connection with
  | none => some ({ v with closed := true }, .done .nothing, [.closeInvoked])
  | some c => some ({ v with closed := true }, .closing, [.closeInvoked, .closed c.id])

/-- A call begins. -/
def start : Request D → Outcome → Next D
  | .sendTransaction tx, .passes review => sendTransaction S v tx review
  | .signTypedData data, .passes review => signTypedData V S v data review
  | .resumeTransaction, .passes _ => resumeTransaction v
  | .close, .passes _ => close v
  | _, _ => none

/-- The check of the recovery byte, and the bytes of the signed transaction. -/
def signedBytes (t : Prepared) (s : Signature) : Except SwapError String :=
  match s.v.toInt? with
  | none => .error .invalidRecoveryId
  | some n =>
    if n < 0 ∨ n > 255 then .error .invalidRecoveryId
    else
      let parity := if n ≤ 1 then n else (n + 1) % 2
      (V.serializeSigned t s.r s.s (27 + parity)).elim (.error .external) .ok

/-- Between a signature and its use: the swap is neither closed nor out of date. -/
def stillOpen (review : Bool) (next : Next D) : Next D :=
  if v.closed then leave v (.throws .closed)
  else if review then next
  else leave v (.throws .external)

/-- `confirmPending`, up to its `await`. -/
def confirmPending : Next D :=
  match v.pending with
  | none => goto v (.leaving .nothing)
  | some current => goto v (.receipt current)

/-- A receipt of the pending transaction. -/
def confirmed (current : Pending) (success : Bool) : Next D :=
  if success then
    some ({ v with pending := none, nextStep := current.step + 1 }, .leaving (.hash current.hash),
      [.receipt current.hash true])
  else
    some ({ v with pending := none }, .leaving (.throws .reverted),
      [.receipt current.hash false])

/-- What a call awaits settles, and it runs to its next `await`. -/
def settle : Phase D → Outcome → Next D
  | .owner j, .passes _ => goto v (.chain j)
  | .chain j, .passes review =>
    if review then
      if v.closed then leave v (.throws .closed) else goto v (.entered j)
    else leave v (.throws .external)
  | .entered j, .passes _ =>
    match v.connection with
    | none => goto (mark v j) (.connecting j)
    | some c => withConnection S (mark v j) j c []
  | .connecting j, .connected address =>
    let c : Connection := ⟨v.opened, address⟩
    withConnection S { v with connection := some c, opened := v.opened + 1 } j c [.opened c.id]
  | .connecting _, .throws => goto v (.leaving (.throws .external))
  | .rejecting _, .passes _ =>
    goto { v with connection := none } (.leaving (.throws .wrongAccount))
  | .rejecting _, .throws => goto v (.leaving (.throws .external))
  | .ready (.send expected) c, .passes _ => goto v (.preparing expected c)
  | .ready (.order data) _, .passes _ => some (v, .ordering, [.orderRequest data])
  | .preparing expected _, .prepared t =>
    if t.chainId = S.chainId ∧ t.sends expected
        ∧ t.type.getD "" ∈ ["legacy", "eip2930", "eip1559"] then
      match V.serializeTransaction t with
      | none => leave v (.throws .external)
      | some _ => some (v, .signing t, [.signRequest t])
    else leave v (.throws .preparedChanged)
  | .signing t, .signed s =>
    match signedBytes V t s with
    | .error e => leave v (.throws e)
    | .ok raw => goto v (.recovering t raw)
  | .recovering t raw, .recovered address review =>
    if sameText address S.owner then stillOpen v review (goto v (.checkingOwner t raw))
    else leave v (.throws .wrongSigner)
  | .checkingOwner t raw, .passes _ => goto v (.checkingChain t raw)
  | .checkingChain t raw, .passes review =>
    stillOpen v review (some ({ v with pending := some ⟨V.keccak256 raw, v.nextStep⟩ }, .sending,
      [.broadcast t raw]))
  | .sending, .sent hash =>
    if v.pending.any (fun p => sameText hash p.hash) then confirmPending v
    else leave v (.throws (if v.pending.isSome then .hashMismatch else .external))
  | .receipt current, .receipt transactionHash success =>
    if sameText transactionHash current.hash then confirmed v current success
    else goto v (.leaving (.throws .receiptMismatch))
  | .receipt _, .throws => goto v (.leaving (.throws .external))
  | .ordering, .ordered signature => goto v (.recoveringOrder signature)
  | .recoveringOrder signature, .recovered address review =>
    if sameText address S.owner then stillOpen v review (goto v (.checkingOrder signature))
    else leave v (.throws .wrongSigner)
  | .checkingOrder signature, .passes review =>
    stillOpen v review (some ({ v with busy := false }, .done (.signature signature),
      [.returned signature]))
  | .resumeOwner, .passes _ => goto v .resumeChain
  | .resumeChain, .passes _ => confirmPending v
  | .leaving r, .passes _ => leave v r
  | .closing, .passes _ => goto { v with connection := none } (.done .nothing)
  | .closing, .throws => goto v (.done (.throws .external))
  | .done _, _ | .leaving _, _ | .entered _, _ | .ready _ _, _ => none
  | _, .throws => leave v (.throws .external)
  | _, _ => none

end

/-- The object that is returned. -/
def signer {D : Type} (V : Viem D) (S : Swap D) :
    Machine Vars (Request D) (Phase D) Outcome (Effect D) :=
  ⟨start V S, settle V S⟩

end Bufi.LedgerSwap
