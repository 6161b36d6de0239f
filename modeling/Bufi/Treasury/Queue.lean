import Bufi.Treasury.State

/-!
# The admin queue

`queueAdmin`, `executeAdmin`, `cancelAdmin`, `pause` and `revokeIntent`, with
the digest each of them asks a quorum for, and `step`, one transaction of a run.

Each function has an `_eq_ok` lemma that says exactly when it succeeds and what
state it leaves; `effect_of_step` collects them.  The invariants of the other
modules are proved from these, and from `runAdmin_frame`, which says what an
executed setter can have touched.
-/

namespace Bufi.Treasury

open Bufi.Evm Bufi.Gateway

/-! ### Digests -/

section Digests

variable {W : Type} (K : Keccak W) (d : Deployment)

def adminOpTypehash : W := K.typeHash
  "AdminOp(bytes32 callHash,uint256 nonce,uint256 deadline,uint256 epoch)"

def cancelAdminOpTypehash : W := K.typeHash "CancelAdminOp(uint256 nonce)"

def revokeIntentTypehash : W := K.typeHash "RevokeIntent(bytes32 digest)"

def pauseTypehash : W := K.typeHash "Pause(uint256 nonce)"

def adminDomainSep : W :=
  domainSeparator K (ascii "GatewayTreasury") (ascii "1") d.chainid d.treasury

def adminDigest (structHash : W) : W := K.hashTyped (adminDomainSep K d) structHash

/-- The digest `queueAdmin` checks. -/
def queueDigest (call : Bytes) (nonce deadline epoch : Uint256) : W :=
  adminDigest K d (K.hashWords
    [adminOpTypehash K, K.hash call, K.word nonce, K.word deadline, K.word epoch])

/-- The digest `cancelAdmin` checks. -/
def cancelDigest (nonce : Uint256) : W :=
  adminDigest K d (K.hashWords [cancelAdminOpTypehash K, K.word nonce])

/-- The digest `revokeIntent` checks. -/
def revokeDigest (digest : W) : W :=
  adminDigest K d (K.hashWords [revokeIntentTypehash K, digest])

/-- The digest `pause` checks. -/
def pauseDigest (nonce : Uint256) : W :=
  adminDigest K d (K.hashWords [pauseTypehash K, K.word nonce])

end Digests

/-! ### The functions -/

/-- `7 days`. -/
def adminOpGrace : ℕ := 7 * 24 * 60 * 60

section Functions

variable {W : Type} [DecidableEq W] (K : Keccak W) (d : Deployment) (O : SigOracle W) (c : Callees)
  (timestamp : Uint256) (s : State W)

/-- `if (!_checkWeightedSigs(..)) revert QuorumNotReached();` -/
def requireQuorum (digest : W) (ownerSigs : MemBytes) : Except Revert Unit := do
  let ok ← orRevert (checkWeightedSigs O d.treasury s.toSigners digest ownerSigs) .panic
  require (ok = true) .quorumNotReached

def queueAdmin (call : Bytes) (nonce deadline : Uint256) (ownerSigs : MemBytes) :
    Except Revert (State W) := do
  require (s.usedNonces nonce = false) .nonceAlreadyUsed
  require (timestamp ≤ deadline) .signatureExpired
  requireQuorum d O s (queueDigest K d call nonce deadline s.adminEpoch) ownerSigs
  let eta ← orRevert (checkedAdd timestamp.toNat s.adminTimelock.toNat) .panic
  pure { s with
    usedNonces := Function.update s.usedNonces nonce true
    adminOps := Function.update s.adminOps nonce
      ⟨K.hash call, BitVec.ofNat 256 eta, false, false, s.adminEpoch⟩ }

def executeAdmin (call : Bytes) (nonce : Uint256) : Except Revert (State W) := do
  let op := s.adminOps nonce
  require (op.callHash ≠ K.word 0) .opNotFound
  require (op.executed = false) .opAlreadyExecuted
  require (op.cancelled = false) .opAlreadyCancelled
  require (op.epoch = s.adminEpoch) .opStale
  require (op.eta ≤ timestamp) .timelockNotExpired
  let last ← orRevert (checkedAdd op.eta.toNat adminOpGrace) .panic
  require (timestamp.toNat ≤ last) .opExpired
  require (K.hash call = op.callHash) .opNotFound
  require (4 ≤ call.length) .invalidCallTarget
  require (isAllowedAdminSelector (selectorOf call) = true) .invalidCallTarget
  let s := { s with adminOps := Function.update s.adminOps nonce { op with executed := true } }
  match dispatch d c s d.treasury call with
  | .error reason => throw (.selfCallFailed reason)
  | .ok s' => pure s'

def cancelAdmin (nonce : Uint256) (ownerSigs : MemBytes) : Except Revert (State W) := do
  let op := s.adminOps nonce
  if op.callHash = K.word 0 then
    require (s.usedNonces nonce = false) .opNotFound
  else do
    require (op.executed = false) .opAlreadyExecuted
    require (op.cancelled = false) .opAlreadyCancelled
  requireQuorum d O s (cancelDigest K d nonce) ownerSigs
  pure { s with
    usedNonces := Function.update s.usedNonces nonce true
    adminOps := Function.update s.adminOps nonce { op with cancelled := true } }

def revokeIntent (digest : W) (ownerSigs : MemBytes) : Except Revert (State W) := do
  requireQuorum d O s (revokeDigest K d digest) ownerSigs
  pure { s with revokedIntents := Function.update s.revokedIntents digest true }

def pause (nonce : Uint256) (ownerSigs : MemBytes) : Except Revert (State W) := do
  require (s.usedNonces nonce = false) .nonceAlreadyUsed
  requireQuorum d O s (pauseDigest K d nonce) ownerSigs
  pure { s with usedNonces := Function.update s.usedNonces nonce true, paused := true }

def sweepToGateway (token : Address) : Except Revert (State W) := do
  require ((s.allowedTokens token).eip712Name.length ≠ 0) .tokenNotAllowed
  let bal ← orRevert (c.balanceOf token) .callee
  require (bal ≠ 0) .zeroBalance
  let approveOk ← orRevert (c.approve token d.gatewayWallet bal) .callee
  require (approveOk = true) .transferFailed
  orRevert (c.deposit token bal) .callee
  let _ ← orRevert (c.approve token d.gatewayWallet 0) .callee
  pure s

end Functions

/-! ### Transactions -/

/-- The calls anybody can make; `setter` is a direct call of a setter. -/
inductive Action (W : Type)
  | queueAdmin (call : Bytes) (nonce deadline : Uint256) (ownerSigs : MemBytes)
  | executeAdmin (call : Bytes) (nonce : Uint256)
  | cancelAdmin (nonce : Uint256) (ownerSigs : MemBytes)
  | revokeIntent (digest : W) (ownerSigs : MemBytes)
  | pause (nonce : Uint256) (ownerSigs : MemBytes)
  | sweepToGateway (token : Address)
  | setter (call : Bytes)

/-- A transaction.  The treasury calls itself only inside `executeAdmin`, so no
transaction has it as the sender. -/
structure Tx (W : Type) (d : Deployment) where
  sender : Address
  sender_ne : sender ≠ d.treasury
  timestamp : Uint256
  sigs : SigOracle W
  callees : Callees
  action : Action W

section Step

variable {W : Type} [DecidableEq W] (K : Keccak W) (d : Deployment)

def exec (s : State W) (tx : Tx W d) : Except Revert (State W) :=
  match tx.action with
  | .queueAdmin call nonce deadline ownerSigs =>
    queueAdmin K d tx.sigs tx.timestamp s call nonce deadline ownerSigs
  | .executeAdmin call nonce => executeAdmin K d tx.callees tx.timestamp s call nonce
  | .cancelAdmin nonce ownerSigs => cancelAdmin K d tx.sigs s nonce ownerSigs
  | .revokeIntent digest ownerSigs => revokeIntent K d tx.sigs s digest ownerSigs
  | .pause nonce ownerSigs => pause K d tx.sigs s nonce ownerSigs
  | .sweepToGateway token => sweepToGateway d tx.callees s token
  | .setter call => dispatch d tx.callees s tx.sender call

def step (s : State W) (tx : Tx W d) : Option (State W) := (exec K d s tx).toOption

end Step

/-! ### When a call succeeds -/

section Success

variable {W : Type} [DecidableEq W] {K : Keccak W} {d : Deployment} {O : SigOracle W} {c : Callees}
  {timestamp : Uint256} {s s' : State W}

/-- The quorum check, as a proposition. -/
def HasQuorum (d : Deployment) (O : SigOracle W) (s : State W) (digest : W) (ownerSigs : MemBytes) :
    Prop :=
  checkWeightedSigs O d.treasury s.toSigners digest ownerSigs = some true

omit [DecidableEq W] in
theorem requireQuorum_eq_ok {digest : W} {ownerSigs : MemBytes} {u : Unit} :
    requireQuorum d O s digest ownerSigs = .ok u ↔ HasQuorum d O s digest ownerSigs := by
  simp [requireQuorum, HasQuorum, bind_eq_ok]

omit [DecidableEq W] in
theorem queueAdmin_eq_ok {call : Bytes} {nonce deadline : Uint256} {ownerSigs : MemBytes} :
    queueAdmin K d O timestamp s call nonce deadline ownerSigs = .ok s'
      ↔ s.usedNonces nonce = false ∧ timestamp ≤ deadline
        ∧ HasQuorum d O s (queueDigest K d call nonce deadline s.adminEpoch) ownerSigs
        ∧ timestamp.toNat + s.adminTimelock.toNat < 2 ^ 256
        ∧ s' = { s with
            usedNonces := Function.update s.usedNonces nonce true
            adminOps := Function.update s.adminOps nonce
              ⟨K.hash call, BitVec.ofNat 256 (timestamp.toNat + s.adminTimelock.toNat), false, false,
                s.adminEpoch⟩ } := by
  simp only [queueAdmin, bind_eq_ok, require_eq_ok, requireQuorum_eq_ok, orRevert_eq_ok,
    checkedAdd_eq_some, pure_eq_ok, exists_const]
  constructor
  · rintro ⟨h1, h2, h3, eta, ⟨h4, rfl⟩, rfl⟩
    exact ⟨h1, h2, h3, h4, rfl⟩
  · rintro ⟨h1, h2, h3, h4, rfl⟩
    exact ⟨h1, h2, h3, _, ⟨h4, rfl⟩, rfl⟩

/-- The state in which the self-call of `executeAdmin` runs. -/
def State.markExecuted (s : State W) (nonce : Uint256) : State W :=
  { s with
    adminOps := Function.update s.adminOps nonce { s.adminOps nonce with executed := true } }

omit [DecidableEq W] in
theorem dispatch_eq_ok {sender : Address} {call : Bytes} :
    dispatch d c s sender call = .ok s'
      ↔ ∃ admin, decodeAdminCall call = some admin ∧ sender = d.treasury
        ∧ runAdmin d c s admin = .ok s' := by
  simp only [dispatch, bind_eq_ok, orRevert_eq_ok, require_eq_ok, exists_const]

/-- What `executeAdmin` has checked when it makes the self-call. -/
structure Executable (K : Keccak W) (timestamp : Uint256) (s : State W) (call : Bytes)
    (nonce : Uint256) : Prop where
  found : (s.adminOps nonce).callHash ≠ K.word 0
  not_executed : (s.adminOps nonce).executed = false
  not_cancelled : (s.adminOps nonce).cancelled = false
  current : (s.adminOps nonce).epoch = s.adminEpoch
  matured : (s.adminOps nonce).eta.toNat ≤ timestamp.toNat
  last_lt : (s.adminOps nonce).eta.toNat + adminOpGrace < 2 ^ 256
  alive : timestamp.toNat ≤ (s.adminOps nonce).eta.toNat + adminOpGrace
  call_eq : K.hash call = (s.adminOps nonce).callHash
  length_ge : 4 ≤ call.length
  selector : isAllowedAdminSelector (selectorOf call) = true

theorem executeAdmin_eq_ok {call : Bytes} {nonce : Uint256} :
    executeAdmin K d c timestamp s call nonce = .ok s'
      ↔ Executable K timestamp s call nonce ∧ ∃ admin, decodeAdminCall call = some admin
        ∧ runAdmin d c (s.markExecuted nonce) admin = .ok s' := by
  have hcall : (match dispatch d c (s.markExecuted nonce) d.treasury call with
      | .error reason => throw (.selfCallFailed reason)
      | .ok s' => pure s' : Except Revert (State W)) = .ok s'
        ↔ dispatch d c (s.markExecuted nonce) d.treasury call = .ok s' := by
    cases dispatch d c (s.markExecuted nonce) d.treasury call with
    | error e => simp [throw, throwThe, MonadExceptOf.throw]
    | ok t => simp [pure, Except.pure]
  simp only [executeAdmin, bind_eq_ok, require_eq_ok, orRevert_eq_ok, checkedAdd_eq_some,
    exists_const]
  constructor
  · rintro ⟨h1, h2, h3, h4, h5, last, ⟨hlt, rfl⟩, h6, h7, h8, h9, h10⟩
    obtain ⟨admin, hdec, -, hrun⟩ := dispatch_eq_ok.mp (hcall.mp h10)
    exact ⟨⟨h1, h2, h3, h4, h5, hlt, h6, h7, h8, h9⟩, admin, hdec, hrun⟩
  · rintro ⟨⟨h1, h2, h3, h4, h5, hlt, h6, h7, h8, h9⟩, admin, hdec, hrun⟩
    exact ⟨h1, h2, h3, h4, h5, _, ⟨hlt, rfl⟩, h6, h7, h8, h9,
      hcall.mpr (dispatch_eq_ok.mpr ⟨admin, hdec, rfl, hrun⟩)⟩

/-- When `cancelAdmin` may cancel: a live queued op, or a nonce never used. -/
def Cancellable (K : Keccak W) (s : State W) (nonce : Uint256) : Prop :=
  if (s.adminOps nonce).callHash = K.word 0 then s.usedNonces nonce = false
  else (s.adminOps nonce).executed = false ∧ (s.adminOps nonce).cancelled = false

theorem cancelAdmin_eq_ok {nonce : Uint256} {ownerSigs : MemBytes} :
    cancelAdmin K d O s nonce ownerSigs = .ok s'
      ↔ Cancellable K s nonce ∧ HasQuorum d O s (cancelDigest K d nonce) ownerSigs
        ∧ s' = { s with
            usedNonces := Function.update s.usedNonces nonce true
            adminOps := Function.update s.adminOps nonce
              { s.adminOps nonce with cancelled := true } } := by
  by_cases hz : (s.adminOps nonce).callHash = K.word 0
  · simp only [cancelAdmin, Cancellable, if_pos hz, bind_eq_ok, require_eq_ok,
      requireQuorum_eq_ok, exists_const, pure_eq_ok]
  · simp only [cancelAdmin, Cancellable, if_neg hz, bind_eq_ok, require_eq_ok,
      requireQuorum_eq_ok, exists_const, pure_eq_ok, and_assoc]

theorem revokeIntent_eq_ok {digest : W} {ownerSigs : MemBytes} :
    revokeIntent K d O s digest ownerSigs = .ok s'
      ↔ HasQuorum d O s (revokeDigest K d digest) ownerSigs
        ∧ s' = { s with revokedIntents := Function.update s.revokedIntents digest true } := by
  simp only [revokeIntent, bind_eq_ok, requireQuorum_eq_ok, exists_const, pure_eq_ok]

omit [DecidableEq W] in
theorem pause_eq_ok {nonce : Uint256} {ownerSigs : MemBytes} :
    pause K d O s nonce ownerSigs = .ok s'
      ↔ s.usedNonces nonce = false ∧ HasQuorum d O s (pauseDigest K d nonce) ownerSigs
        ∧ s' = { s with
            usedNonces := Function.update s.usedNonces nonce true, paused := true } := by
  simp only [pause, bind_eq_ok, require_eq_ok, requireQuorum_eq_ok, exists_const, pure_eq_ok]

omit [DecidableEq W] in
theorem sweepToGateway_eq_ok {token : Address} (h : sweepToGateway d c s token = .ok s') :
    s' = s := by
  simp only [sweepToGateway, bind_eq_ok, orRevert_eq_ok, require_eq_ok, exists_const,
    pure_eq_ok] at h
  obtain ⟨-, bal, -, -, ok, -, -, u, -, ok', -, hs⟩ := h
  exact hs

/-! ### What a setter touches -/

theorem bumpEpoch_eq_ok {epoch epoch' : Uint256} (h : bumpEpoch epoch = .ok epoch') :
    epoch'.toNat = epoch.toNat + 1 := by
  rw [bumpEpoch] at h
  split_ifs at h with hlt
  · rw [pure_eq_ok.mp h, BitVec.toNat_add, Nat.mod_eq_of_lt (by simpa using hlt)]
    rfl

/-- Only the burn-intent policy differs: the owners, the payees, the queue and
the epoch are as before. -/
structure SameControl (s s' : State W) : Prop where
  signers : s'.toSigners = s.toSigners
  recipientCount : s'.recipientCount = s.recipientCount
  allowedRecipients : s'.allowedRecipients = s.allowedRecipients
  revokedIntents : s'.revokedIntents = s.revokedIntents
  adminTimelock : s'.adminTimelock = s.adminTimelock
  adminOps : s'.adminOps = s.adminOps
  usedNonces : s'.usedNonces = s.usedNonces
  adminEpoch : s'.adminEpoch = s.adminEpoch

omit [DecidableEq W] in
/-- Three setters reach the control data; every other one only the policy. -/
theorem runAdmin_cases {admin : AdminCall} (h : runAdmin d c s admin = .ok s') :
    (∃ owners weights threshold, admin = .setOwners owners weights threshold
        ∧ setOwners d s owners weights threshold = .ok s')
      ∨ (∃ secs, admin = .setAdminTimelock secs ∧ setAdminTimelock s secs = .ok s')
      ∨ (∃ recipient allowed, admin = .setAllowedRecipient recipient allowed
        ∧ setAllowedRecipient s recipient allowed = .ok s')
      ∨ SameControl s s' := by
  cases admin with
  | setOwners owners weights threshold => exact Or.inl ⟨_, _, _, rfl, h⟩
  | setAdminTimelock secs => exact Or.inr (Or.inl ⟨_, rfl, h⟩)
  | setAllowedRecipient recipient allowed => exact Or.inr (Or.inr (Or.inl ⟨_, _, rfl, h⟩))
  | setAllowedToken token name version allowed =>
    refine Or.inr (Or.inr (Or.inr ?_))
    simp only [runAdmin, setAllowedToken] at h
    split_ifs at h
    · simp only [bind_eq_ok, require_eq_ok, exists_const, pure_eq_ok] at h
      rw [h.2]
      constructor <;> rfl
    · rw [pure_eq_ok.mp h]
      constructor <;> rfl
  | setPerIntentCap | setMaxExpiryBlocks =>
    refine Or.inr (Or.inr (Or.inr ?_))
    simp only [runAdmin, setPerIntentCap, setMaxExpiryBlocks, bind_eq_ok, require_eq_ok,
      exists_const, pure_eq_ok] at h
    rw [h.2]
    constructor <;> rfl
  | gatewayInitiateWithdrawal | gatewayWithdraw =>
    refine Or.inr (Or.inr (Or.inr ?_))
    simp only [runAdmin, gatewayInitiateWithdrawal, gatewayWithdraw, bind_eq_ok, require_eq_ok,
      orRevert_eq_ok, exists_const, pure_eq_ok] at h
    obtain ⟨-, u, -, rfl⟩ := h
    constructor <;> rfl
  | transferToRecipient token recipient amount =>
    refine Or.inr (Or.inr (Or.inr ?_))
    simp only [runAdmin, transferToRecipient, bind_eq_ok, require_eq_ok, orRevert_eq_ok,
      exists_const, pure_eq_ok] at h
    obtain ⟨-, -, -, ok, -, -, rfl⟩ := h
    constructor <;> rfl
  | setAllowedDestinationDomain | setMaxFeeCap | setAllowedDestinationToken | setDestinationMinter
  | setAllowedDestinationCaller | setPaused =>
    refine Or.inr (Or.inr (Or.inr ?_))
    rw [pure_eq_ok.mp h]
    constructor <;> rfl

/-- An executed setter leaves the queue, the nonces and the revocations alone,
and raises the epoch when it changes who signs or how long an op waits. -/
structure SetterFrame (s s' : State W) : Prop where
  adminOps : s'.adminOps = s.adminOps
  usedNonces : s'.usedNonces = s.usedNonces
  revokedIntents : s'.revokedIntents = s.revokedIntents
  epoch : s'.toSigners = s.toSigners ∧ s'.adminTimelock = s.adminTimelock
      ∧ s'.adminEpoch = s.adminEpoch
    ∨ s'.adminEpoch.toNat = s.adminEpoch.toNat + 1

omit [DecidableEq W] in
theorem setAllowedRecipient_cases {recipient : Bytes32} {allowed : Bool}
    (h : setAllowedRecipient s recipient allowed = .ok s') :
    s' = s
      ∨ s.allowedRecipients recipient = false ∧ s' = { s with
          recipientCount := s.recipientCount + 1
          allowedRecipients := Function.update s.allowedRecipients recipient true }
      ∨ s.allowedRecipients recipient = true ∧ 1 < s.recipientCount ∧ s' = { s with
          recipientCount := s.recipientCount - 1
          allowedRecipients := Function.update s.allowedRecipients recipient false } := by
  rw [setAllowedRecipient] at h
  split_ifs at h with hsame hallow
  · exact Or.inl (pure_eq_ok.mp h)
  · simp only [bind_eq_ok, orRevert_eq_ok, checkedAdd_eq_some, pure_eq_ok] at h
    obtain ⟨count, ⟨-, rfl⟩, rfl⟩ := h
    subst hallow
    exact Or.inr (Or.inl ⟨by simpa using hsame, rfl⟩)
  · simp only [bind_eq_ok, require_eq_ok, exists_const, pure_eq_ok] at h
    have hfalse : allowed = false := by simpa using hallow
    subst hfalse
    exact Or.inr (Or.inr ⟨by simpa using hsame, h.1, h.2⟩)

omit [DecidableEq W] in
theorem runAdmin_frame {admin : AdminCall} (h : runAdmin d c s admin = .ok s') :
    SetterFrame s s' := by
  rcases runAdmin_cases h with ⟨o, w, t, -, h⟩ | ⟨secs, -, h⟩ | ⟨r, a, -, h⟩ | h
  · simp only [setOwners, bind_eq_ok, require_eq_ok, exists_const, pure_eq_ok] at h
    obtain ⟨-, -, total, -, -, epoch, he, rfl⟩ := h
    exact ⟨rfl, rfl, rfl, Or.inr (bumpEpoch_eq_ok he)⟩
  · simp only [setAdminTimelock, bind_eq_ok, pure_eq_ok] at h
    obtain ⟨epoch, he, rfl⟩ := h
    exact ⟨rfl, rfl, rfl, Or.inr (bumpEpoch_eq_ok he)⟩
  · rcases setAllowedRecipient_cases h with rfl | ⟨-, rfl⟩ | ⟨-, -, rfl⟩
    all_goals exact ⟨rfl, rfl, rfl, Or.inl ⟨rfl, rfl, rfl⟩⟩
  · exact ⟨h.adminOps, h.usedNonces, h.revokedIntents,
      Or.inl ⟨h.signers, h.adminTimelock, h.adminEpoch⟩⟩

/-! ### The effect of a transaction -/

/-- What a transaction that did not revert has checked and done. -/
inductive Effect (K : Keccak W) (d : Deployment) (s : State W) (tx : Tx W d) : State W → Prop
  | queued {call : Bytes} {nonce deadline : Uint256} {ownerSigs : MemBytes}
      (action : tx.action = .queueAdmin call nonce deadline ownerSigs)
      (fresh : s.usedNonces nonce = false) (in_time : tx.timestamp ≤ deadline)
      (quorum : HasQuorum d tx.sigs s (queueDigest K d call nonce deadline s.adminEpoch) ownerSigs)
      (eta_lt : tx.timestamp.toNat + s.adminTimelock.toNat < 2 ^ 256) :
      Effect K d s tx { s with
        usedNonces := Function.update s.usedNonces nonce true
        adminOps := Function.update s.adminOps nonce
          ⟨K.hash call, BitVec.ofNat 256 (tx.timestamp.toNat + s.adminTimelock.toNat), false, false,
            s.adminEpoch⟩ }
  | executed {call : Bytes} {nonce : Uint256} {admin : AdminCall} {s' : State W}
      (action : tx.action = .executeAdmin call nonce)
      (executable : Executable K tx.timestamp s call nonce)
      (decoded : decodeAdminCall call = some admin)
      (ran : runAdmin d tx.callees (s.markExecuted nonce) admin = .ok s') : Effect K d s tx s'
  | cancelled {nonce : Uint256} {ownerSigs : MemBytes}
      (action : tx.action = .cancelAdmin nonce ownerSigs) (cancellable : Cancellable K s nonce)
      (quorum : HasQuorum d tx.sigs s (cancelDigest K d nonce) ownerSigs) :
      Effect K d s tx { s with
        usedNonces := Function.update s.usedNonces nonce true
        adminOps := Function.update s.adminOps nonce { s.adminOps nonce with cancelled := true } }
  | revoked {digest : W} {ownerSigs : MemBytes}
      (action : tx.action = .revokeIntent digest ownerSigs)
      (quorum : HasQuorum d tx.sigs s (revokeDigest K d digest) ownerSigs) :
      Effect K d s tx { s with
        revokedIntents := Function.update s.revokedIntents digest true }
  | paused {nonce : Uint256} {ownerSigs : MemBytes}
      (action : tx.action = .pause nonce ownerSigs) (fresh : s.usedNonces nonce = false)
      (quorum : HasQuorum d tx.sigs s (pauseDigest K d nonce) ownerSigs) :
      Effect K d s tx { s with
        usedNonces := Function.update s.usedNonces nonce true, paused := true }
  | swept {token : Address} (action : tx.action = .sweepToGateway token) : Effect K d s tx s

/-- **Every step has one of the effects.**  A setter called directly has none:
its sender is not the treasury. -/
theorem effect_of_step {tx : Tx W d} (h : step K d s tx = some s') : Effect K d s tx s' := by
  have h := toOption_eq_some.mp h
  rw [exec] at h
  cases ha : tx.action with
  | queueAdmin call nonce deadline ownerSigs =>
    rw [ha] at h
    obtain ⟨h1, h2, h3, h4, rfl⟩ := queueAdmin_eq_ok.mp h
    exact .queued ha h1 h2 h3 h4
  | executeAdmin call nonce =>
    rw [ha] at h
    obtain ⟨h1, admin, h2, h3⟩ := executeAdmin_eq_ok.mp h
    exact .executed ha h1 h2 h3
  | cancelAdmin nonce ownerSigs =>
    rw [ha] at h
    obtain ⟨h1, h2, rfl⟩ := cancelAdmin_eq_ok.mp h
    exact .cancelled ha h1 h2
  | revokeIntent digest ownerSigs =>
    rw [ha] at h
    obtain ⟨h1, rfl⟩ := revokeIntent_eq_ok.mp h
    exact .revoked ha h1
  | pause nonce ownerSigs =>
    rw [ha] at h
    obtain ⟨h1, h2, rfl⟩ := pause_eq_ok.mp h
    exact .paused ha h1 h2
  | sweepToGateway token =>
    rw [ha] at h
    obtain rfl := sweepToGateway_eq_ok h
    exact .swept ha
  | setter call =>
    rw [ha] at h
    obtain ⟨admin, -, hs, -⟩ := dispatch_eq_ok.mp h
    exact absurd hs tx.sender_ne

end Success

end Bufi.Treasury
