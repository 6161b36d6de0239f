import Bufi.Evm.Checks
import Bufi.Evm.Erc20
import Bufi.Evm.Hash
import Bufi.Evm.Run

/-!
# The treasury conduit

`TreasuryConduit.sol` over a ledger of tokens.  `execute` is the contract's
function with the call to the target as a parameter; `Action` is what anybody can do
on the chain, and an `execute` carries the actions that its target makes.  A target
that catches a failed call of its own is one that did not make it, so a list of
actions that all succeed, or the failure of the whole call, is all that a target can
do.  An action of the conduit itself is one of its functions: no plain operation on a
token is called by it.

`redeem` is what Circle's token does with an ERC-3009 authorization: it checks the
window and the signature, uses the nonce up and moves the value.  Whose signature is
valid is a parameter of the transaction (`Env.signed`).
-/

namespace Bufi.Conduit

open Bufi.Evm Bufi.Evm.Erc20

/-! ### Tokens with authorizations -/

inductive Kind
  | receiveWithAuthorization
  | transferWithAuthorization
  deriving DecidableEq

/-- The message of an authorization. -/
structure Grant (W : Type) where
  kind : Kind
  token : Address
  from' : Address
  to' : Address
  value : Uint256
  validAfter : Uint256
  validBefore : Uint256
  nonce : W
  deriving DecidableEq

/-- What a transaction finds: the time and the valid signatures. -/
structure Env (W : Type) where
  timestamp : Uint256
  signed : Grant W → Bytes → Bool
  /-- Signatures of `cancelAuthorization`, by token, authorizer and nonce. -/
  cancelled : Address → Address → W → Bytes → Bool

/-- The tokens and the storage of the conduit. -/
structure Chain (W : Type) where
  ledger : Ledger Address Address
  /-- `authorizationState`, by token, authorizer and nonce. -/
  used : Address → Address → W → Bool
  targets : Address → Bool
  owner : Address
  pendingOwner : Address
  entered : Bool

section

variable {W : Type} [DecidableEq W]

def useNonce (s : Chain W) (token from' : Address) (nonce : W) : Chain W :=
  { s with used := fun t f n =>
      if t = token ∧ f = from' ∧ n = nonce then true else s.used t f n }

def redeem (E : Env W) (g : Grant W) (signature : Bytes) (s : Chain W) : Option (Chain W) :=
  if g.validAfter < E.timestamp ∧ E.timestamp < g.validBefore
      ∧ s.used g.token g.from' g.nonce = false ∧ E.signed g signature = true then
    (s.ledger.move g.token g.from' g.to' g.value.toNat).map
      (fun l => { useNonce s g.token g.from' g.nonce with ledger := l })
  else none

end

/-! ### The conduit -/

structure Authorization (W : Type) where
  token : Address
  from' : Address
  value : Uint256
  validAfter : Uint256
  validBefore : Uint256
  nonce : W
  deriving DecidableEq

structure Intent where
  target : Address
  data : Bytes
  tokenIn : Address
  amountIn : Uint256
  tokenOut : Address
  minOut : Uint256
  beneficiary : Address
  deadline : Uint256
  memoId : Bytes32
  memo : Bytes
  deriving DecidableEq

/-- The custom errors, the guard, `onlyOwner`, and what a token or the compiler
reverts with. -/
inductive Revert (W : Type)
  | beneficiaryMismatch (beneficiary from' : Address)
  | tokenMismatch (tokenIn token : Address)
  | amountMismatch (amountIn value : Uint256)
  | nonceIsNotTheIntent (nonce expected : W)
  | intentExpired (deadline now : Uint256)
  | targetNotRegistered (target : Address)
  | targetCallFailed
  | belowFloor (gained : ℕ) (minOut : Uint256)
  | nothingToSweep
  | reentrantCall
  | unauthorizedAccount (account : Address)
  | token
  | panic
  deriving DecidableEq

def intentTypeString : String :=
  "Intent(address target,bytes data,address tokenIn,uint256 amountIn,address tokenOut," ++
  "uint256 minOut,address beneficiary,uint256 deadline,bytes32 memoId,bytes memo)"

section

variable {W : Type} (K : Keccak W)

def intentNonce (intent : Intent) : W :=
  K.hashWords [K.typeHash intentTypeString, K.addr intent.target, K.hash intent.data,
    K.addr intent.tokenIn, K.word intent.amountIn, K.addr intent.tokenOut, K.word intent.minOut,
    K.addr intent.beneficiary, K.word intent.deadline, K.word intent.memoId, K.hash intent.memo]

/-- `token.forceApprove(spender, amount)`. -/
def forceApprove (token owner spender : Address) (amount : ℕ) (s : Chain W) : Chain W :=
  { s with ledger := s.ledger.setAllowance token owner spender amount }

/-- All of a token that `holder` has. -/
def sweep (holder token to' : Address) (l : Ledger Address Address) :
    Option (Ledger Address Address) :=
  if 0 < l.balance token holder then l.move token holder to' (l.balance token holder) else some l

/-- The sweeps of step 3. -/
def sweepBoth (conduit : Address) (intent : Intent) (to' : Address) (s : Chain W) :
    Option (Chain W) :=
  ((sweep conduit intent.tokenIn to' s.ledger).bind (fun l =>
    if intent.tokenOut ≠ intent.tokenIn then sweep conduit intent.tokenOut to' l else some l)).map
    (fun l => { s with ledger := l })

/-- The checks before anything is moved. -/
def checkIntent (E : Env W) (s : Chain W) [DecidableEq W] (auth : Authorization W)
    (intent : Intent) : Except (Revert W) Unit := do
  require (intent.beneficiary = auth.from') (.beneficiaryMismatch intent.beneficiary auth.from')
  require (intent.tokenIn = auth.token) (.tokenMismatch intent.tokenIn auth.token)
  require (intent.amountIn = auth.value) (.amountMismatch intent.amountIn auth.value)
  require (auth.nonce = intentNonce K intent)
    (.nonceIsNotTheIntent auth.nonce (intentNonce K intent))
  require (¬intent.deadline < E.timestamp) (.intentExpired intent.deadline E.timestamp)
  require (s.targets intent.target = true) (.targetNotRegistered intent.target)

def Authorization.grant (conduit : Address) (auth : Authorization W) : Grant W :=
  ⟨.receiveWithAuthorization, auth.token, auth.from', conduit, auth.value, auth.validAfter,
    auth.validBefore, auth.nonce⟩

/-- The function `execute`; `call` is the call to the target. -/
def execute [DecidableEq W] (E : Env W) (conduit : Address) (auth : Authorization W)
    (quorumSignature : Bytes) (intent : Intent) (call : Chain W → Option (Chain W)) (s : Chain W) :
    Except (Revert W) (Chain W) := do
  require (s.entered = false) .reentrantCall
  checkIntent K E s auth intent
  let before := s.ledger.balance intent.tokenOut auth.from'
  let pulled ← orRevert (redeem E (auth.grant conduit) quorumSignature { s with entered := true })
    .token
  let called ← orRevert (call
    (forceApprove intent.tokenIn conduit intent.target intent.amountIn.toNat pulled))
    .targetCallFailed
  let swept ← orRevert (sweepBoth conduit intent auth.from'
    (forceApprove intent.tokenIn conduit intent.target 0 called)) .token
  let gained ← orRevert (checkedSub (swept.ledger.balance intent.tokenOut auth.from') before)
    .panic
  require (intent.minOut.toNat ≤ gained) (.belowFloor gained intent.minOut)
  pure { swept with entered := false }

def rescue (conduit : Address) (sender token to' : Address) (s : Chain W) :
    Except (Revert W) (Chain W) := do
  require (sender = s.owner) (.unauthorizedAccount sender)
  let amount := s.ledger.balance token conduit
  require (amount ≠ 0) .nothingToSweep
  let l ← orRevert (s.ledger.move token conduit to' amount) .token
  pure { s with ledger := l }

/-! ### What anybody can do -/

inductive Action (W : Type)
  | token (op : Op Address Address)
  | redeem (g : Grant W) (signature : Bytes)
  | cancelAuthorization (token authorizer : Address) (nonce : W) (signature : Bytes)
  | rescue (sender token to' : Address)
  | setTarget (sender target : Address) (allowed : Bool)
  | transferOwnership (sender newOwner : Address)
  | acceptOwnership (sender : Address)
  | renounceOwnership (sender : Address)
  | execute (auth : Authorization W) (quorumSignature : Bytes) (intent : Intent)
      (calls : List (Action W))

variable [DecidableEq W] (E : Env W) (conduit : Address)

mutual

/-- One action.  Circle's token pays `receiveWithAuthorization` to its caller only. -/
def act : Action W → Chain W → Except (Revert W) (Chain W)
  | .token op, s => do
    require (op.actor ≠ some conduit) .token
    let l ← orRevert (op.apply s.ledger) .token
    pure { s with ledger := l }
  | .redeem g signature, s => do
    require (g.kind = .receiveWithAuthorization → g.to' ≠ conduit) .token
    orRevert (redeem E g signature s) .token
  | .cancelAuthorization token authorizer nonce signature, s => do
    require (E.cancelled token authorizer nonce signature = true
      ∧ s.used token authorizer nonce = false) .token
    pure (useNonce s token authorizer nonce)
  | .rescue sender token to', s => rescue conduit sender token to' s
  | .setTarget sender target allowed, s => do
    require (sender = s.owner) (.unauthorizedAccount sender)
    pure { s with targets := Function.update s.targets target allowed }
  | .transferOwnership sender newOwner, s => do
    require (sender = s.owner) (.unauthorizedAccount sender)
    pure { s with pendingOwner := newOwner }
  | .acceptOwnership sender, s => do
    require (sender = s.pendingOwner) (.unauthorizedAccount sender)
    pure { s with owner := sender, pendingOwner := 0 }
  | .renounceOwnership sender, s => do
    require (sender = s.owner) (.unauthorizedAccount sender)
    pure { s with owner := 0, pendingOwner := 0 }
  | .execute auth quorumSignature intent calls, s =>
    execute K E conduit auth quorumSignature intent (actAll calls) s

/-- Actions one after another. -/
def actAll : List (Action W) → Chain W → Option (Chain W)
  | [], s => some s
  | a :: rest, s => (act a s).toOption.bind (actAll rest)

end

end

end Bufi.Conduit
