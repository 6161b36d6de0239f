import Bufi.Evm.Erc20
import Bufi.Treasury.Erc1271

/-!
# Custody of the tokens

The treasury among the tokens it holds.  A `World` is the storage of the
treasury, the ledger of every token, and the sweeps that are under way; a `Move`
is what happens next in it.

`sweepToGateway` gives the Gateway wallet an allowance, hands control to it and
takes the allowance back, so that other moves can come in between.  It is two
moves here, `sweepStart` and `sweepEnd`, which `sweepToGateway_eq` puts together
again.  A transaction that reverts undoes the moves inside it; what is left of a
run is a run, and what is shown of every run holds while it lasts.

A token asks the treasury for a signature over digests of its own domain.  What
it does then is the token's business, `Tokens.meaning`; only the struct that the
treasury knows, `ReceiveWithAuthorization`, is fixed to what the standard says.

The result: nobody ever has an allowance from the treasury but the Gateway
wallet while that token is being swept (`Swept`), and a balance falls in three
ways only, an executed payment to an allowed recipient, a pull of the Gateway
wallet in a sweep, and an authorization to the Gateway wallet that a quorum has
signed (`Outflow`).
-/

namespace Bufi.Treasury

open Bufi.Evm Bufi.Gateway

/-! ### The two halves of a sweep -/

section Halves

variable {W : Type} (d : Deployment) (c : Callees) (s : State W)

/-- `sweepToGateway` up to its call of the Gateway wallet; the result is the
allowance it has given. -/
def sweepApprove (token : Address) : Except Revert Uint256 := do
  require ((s.allowedTokens token).eip712Name.length ≠ 0) .tokenNotAllowed
  let bal ← orRevert (c.balanceOf token) .callee
  require (bal ≠ 0) .zeroBalance
  let approveOk ← orRevert (c.approve token d.gatewayWallet bal) .callee
  require (approveOk = true) .transferFailed
  pure bal

theorem sweepToGateway_eq (token : Address) :
    sweepToGateway d c s token = (do
      let bal ← sweepApprove d c s token
      orRevert (c.deposit token bal) .callee
      let _ ← orRevert (c.approve token d.gatewayWallet 0) .callee
      pure s) := by
  simp only [sweepToGateway, sweepApprove, bind_assoc, pure_bind]

variable {d c s}

theorem sweepApprove_eq_ok {token : Address} {bal : Uint256} :
    sweepApprove d c s token = .ok bal
      ↔ (s.allowedTokens token).eip712Name.length ≠ 0 ∧ c.balanceOf token = some bal ∧ bal ≠ 0
        ∧ c.approve token d.gatewayWallet bal = some true := by
  simp only [sweepApprove, bind_eq_ok, require_eq_ok, orRevert_eq_ok, exists_const, pure_eq_ok]
  constructor
  · rintro ⟨h1, b, h2, h3, ok, h4, rfl, rfl⟩
    exact ⟨h1, h2, h3, h4⟩
  · rintro ⟨h1, h2, h3, h4⟩
    exact ⟨h1, bal, h2, h3, true, h4, rfl, rfl⟩

end Halves

/-! ### The tokens -/

/-- The struct hash of an EIP-3009 `ReceiveWithAuthorization`. -/
def receiveStruct {W : Type} (K : Keccak W) (a : ReceiveAuth) : W :=
  K.hashWords [rwaTypehash K, K.addr a.fromAddr, K.addr a.toAddr, K.word a.value,
    K.word a.validAfter, K.word a.validBefore, K.word a.nonce]

/-- The signed entry points of the tokens: the name and version of a token's
domain, and what it does once a signature over a struct hash is good. -/
structure Tokens {W : Type} (K : Keccak W) where
  name : Address → Bytes
  version : Address → Bytes
  meaning : Address → W → Option (Erc20.Op Address Address)
  receive_eq : ∀ {token a op}, meaning token (receiveStruct K a) = some op →
    op = .transfer token a.fromAddr a.toAddr a.value.toNat

/-- The digest that a token checks for a struct hash. -/
def Tokens.digest {W : Type} {K : Keccak W} (M : Tokens K) (chainid : Uint256) (token : Address)
    (structHash : W) : W :=
  K.hashTyped (domainSeparator K (M.name token) (M.version token) chainid token) structHash

/-- The answers of tokens that keep their ledger. -/
def ledgerCallees (d : Deployment) (l : Erc20.Ledger Address Address) : Callees where
  balanceOf token :=
    if l.balance token d.treasury < 2 ^ 256 then
      some (BitVec.ofNat 256 (l.balance token d.treasury))
    else none
  approve _ _ _ := some true
  transfer _ _ _ := none
  deposit _ _ := none
  initiateWithdrawal _ _ := none
  withdraw _ := none

/-- What a transaction of the treasury does to the tokens, sweeps apart. -/
def payment {W : Type} (d : Deployment) : Action W → List (Erc20.Op Address Address)
  | .executeAdmin call _ =>
    match decodeAdminCall call with
    | some (.transferToRecipient token recipient amount) =>
      [.transfer token d.treasury (toAddress recipient) amount.toNat]
    | _ => []
  | _ => []

def Action.isSweep {W : Type} : Action W → Bool
  | .sweepToGateway _ => true
  | _ => false

/-! ### The world -/

structure World (W : Type) where
  treasury : State W
  ledger : Erc20.Ledger Address Address
  /-- The tokens of the sweeps under way, the innermost first. -/
  sweeping : List Address

/-- `foreign` is an operation of another account, `signed` a call of a token for
which it asks the treasury for a signature. -/
inductive Move (W : Type) (d : Deployment)
  | treasury (tx : Tx W d)
  | sweepStart (token : Address)
  | sweepEnd
  | foreign (op : Erc20.Op Address Address)
  | signed (token : Address) (structHash : W) (block : Block) (sigs : SigOracle W)
      (signature : Bytes)

section World

variable {W : Type} [DecidableEq W] (K : Keccak W) (d : Deployment) (M : Tokens K) (w : World W)

def startSweep {W : Type} (d : Deployment) (w : World W) (token : Address) : Option (World W) :=
  (sweepApprove d (ledgerCallees d w.ledger) w.treasury token).toOption.map fun bal =>
    { w with
      ledger := w.ledger.setAllowance token d.treasury d.gatewayWallet bal.toNat
      sweeping := token :: w.sweeping }

def endSweep {W : Type} (d : Deployment) (w : World W) : Option (World W) :=
  match w.sweeping with
  | [] => none
  | token :: rest =>
    some { w with
      ledger := w.ledger.setAllowance token d.treasury d.gatewayWallet 0
      sweeping := rest }

/-- The operations of a list, on the tokens of the world. -/
def World.applyOps {W : Type} (w : World W) (ops : List (Erc20.Op Address Address)) :
    Option (World W) :=
  (Erc20.applyAll ops w.ledger).map fun l => { w with ledger := l }

def signedMove (token : Address) (structHash : W) (block : Block) (sigs : SigOracle W)
    (signature : Bytes) : Option (World W) :=
  if isValidSignature K d w.treasury block sigs (M.digest block.chainid token structHash) signature
      token = some erc1271MagicValue then
    (M.meaning token structHash).bind (fun op => w.applyOps [op])
  else none

def worldStep : Move W d → Option (World W)
  | .treasury tx =>
    if tx.action.isSweep then none
    else (step K d w.treasury tx).bind fun s =>
      { w with treasury := s }.applyOps (payment d tx.action)
  | .sweepStart token => startSweep d w token
  | .sweepEnd => endSweep d w
  | .foreign op => if op.actor = some d.treasury then none else w.applyOps [op]
  | .signed token structHash block sigs signature =>
    signedMove K d M w token structHash block sigs signature

end World

/-! ### One move -/

section Step

variable {W : Type} [DecidableEq W] {K : Keccak W} {d : Deployment} {M : Tokens K} {w w' : World W}
  {mv : Move W d} {t x : Address}

omit [DecidableEq W] in
theorem applyOps_eq_some {ops : List (Erc20.Op Address Address)} (h : w.applyOps ops = some w') :
    ∃ l, Erc20.applyAll ops w.ledger = some l ∧ w' = { w with ledger := l } := by
  obtain ⟨l, hl, rfl⟩ := Option.map_eq_some_iff.mp h
  exact ⟨l, hl, rfl⟩

omit [DecidableEq W] in
theorem applyOps_one {op : Erc20.Op Address Address} (h : w.applyOps [op] = some w') :
    ∃ l, op.apply w.ledger = some l ∧ w' = { w with ledger := l } := by
  obtain ⟨l, hl, rfl⟩ := applyOps_eq_some h
  obtain ⟨m, hm, hnil⟩ := Erc20.applyAll_cons hl
  obtain rfl := Option.some.inj hnil
  exact ⟨m, hm, rfl⟩

omit [DecidableEq W] in
/-- The treasury's own transactions do nothing to the tokens, or pay. -/
theorem payment_cases (d : Deployment) (a : Action W) :
    payment d a = []
      ∨ ∃ call nonce token recipient amount, a = .executeAdmin call nonce
        ∧ decodeAdminCall call = some (.transferToRecipient token recipient amount)
        ∧ payment d a = [.transfer token d.treasury (toAddress recipient) amount.toNat] := by
  cases a with
  | executeAdmin call nonce =>
    cases hdec : decodeAdminCall call with
    | none => exact Or.inl (by simp only [payment, hdec])
    | some admin =>
      cases admin with
      | transferToRecipient token recipient amount =>
        refine Or.inr ⟨call, nonce, token, recipient, amount, rfl, hdec, ?_⟩
        simp only [payment, hdec]
      | _ => exact Or.inl (by simp only [payment, hdec])
  | _ => exact Or.inl rfl

/-- What a move has done. -/
inductive Moved (K : Keccak W) (d : Deployment) (M : Tokens K) (w : World W) :
    Move W d → World W → Prop
  | idle {tx : Tx W d} {s : State W} (ran : step K d w.treasury tx = some s) :
      Moved K d M w (.treasury tx) { w with treasury := s }
  | paid {tx : Tx W d} {s : State W} {l : Erc20.Ledger Address Address} {call : Bytes}
      {nonce : Uint256} {token : Address} {recipient : Bytes32} {amount : Uint256}
      (ran : step K d w.treasury tx = some s) (action : tx.action = .executeAdmin call nonce)
      (decoded : decodeAdminCall call = some (.transferToRecipient token recipient amount))
      (moved : (Erc20.Op.transfer token d.treasury (toAddress recipient) amount.toNat).apply
        w.ledger = some l) :
      Moved K d M w (.treasury tx) { w with treasury := s, ledger := l }
  | started {token : Address} {bal : Uint256} (pos : bal ≠ 0)
      (allowed : (w.treasury.allowedTokens token).eip712Name.length ≠ 0) :
      Moved K d M w (.sweepStart token) { w with
        ledger := w.ledger.setAllowance token d.treasury d.gatewayWallet bal.toNat
        sweeping := token :: w.sweeping }
  | ended {token : Address} {rest : List Address} (top : w.sweeping = token :: rest) :
      Moved K d M w .sweepEnd { w with
        ledger := w.ledger.setAllowance token d.treasury d.gatewayWallet 0
        sweeping := rest }
  | foreign {op : Erc20.Op Address Address} {l : Erc20.Ledger Address Address}
      (other : op.actor ≠ some d.treasury) (moved : op.apply w.ledger = some l) :
      Moved K d M w (.foreign op) { w with ledger := l }
  | signed {token : Address} {structHash : W} {block : Block} {sigs : SigOracle W}
      {signature : Bytes} {op : Erc20.Op Address Address} {l : Erc20.Ledger Address Address}
      (valid : isValidSignature K d w.treasury block sigs (M.digest block.chainid token structHash)
        signature token = some erc1271MagicValue)
      (meaning : M.meaning token structHash = some op) (moved : op.apply w.ledger = some l) :
      Moved K d M w (.signed token structHash block sigs signature) { w with ledger := l }

theorem moved_of_step (h : worldStep K d M w mv = some w') : Moved K d M w mv w' := by
  cases mv with
  | treasury tx =>
    simp only [worldStep] at h
    split_ifs at h with hsweep
    obtain ⟨s, hs, hops⟩ := Option.bind_eq_some_iff.mp h
    rcases payment_cases d tx.action with
      hnil | ⟨call, nonce, token, recipient, amount, ha, hdec, hp⟩
    · rw [hnil] at hops
      obtain ⟨l, hl, rfl⟩ := applyOps_eq_some hops
      obtain rfl := Option.some.inj hl
      exact .idle hs
    · rw [hp] at hops
      obtain ⟨l, hl, rfl⟩ := applyOps_one hops
      exact .paid hs ha hdec hl
  | sweepStart token =>
    obtain ⟨bal, hbal, rfl⟩ := Option.map_eq_some_iff.mp h
    obtain ⟨hallowed, -, hpos, -⟩ := sweepApprove_eq_ok.mp (toOption_eq_some.mp hbal)
    exact .started hpos hallowed
  | sweepEnd =>
    simp only [worldStep, endSweep] at h
    cases htop : w.sweeping with
    | nil =>
      rw [htop] at h
      exact absurd h (by simp)
    | cons token rest =>
      rw [htop] at h
      obtain rfl := Option.some.inj h
      exact .ended htop
  | foreign op =>
    simp only [worldStep] at h
    split_ifs at h with hop
    obtain ⟨l, hl, rfl⟩ := applyOps_one h
    exact .foreign hop hl
  | signed token structHash block sigs signature =>
    simp only [worldStep, signedMove] at h
    split_ifs at h with hvalid
    obtain ⟨op, hop, happ⟩ := Option.bind_eq_some_iff.mp h
    obtain ⟨l, hl, rfl⟩ := applyOps_one happ
    exact .signed hvalid hop hl

/-! ### The treasury in a run of the world -/

/-- The transaction that a move is. -/
def Move.tx : Move W d → Option (Tx W d)
  | .treasury tx => some tx
  | _ => none

theorem step_of_worldStep {tx : Tx W d} (h : worldStep K d M w mv = some w')
    (hmv : mv.tx = some tx) : step K d w.treasury tx = some w'.treasury := by
  cases moved_of_step h with
  | idle ran | paid ran =>
    obtain rfl := Option.some.inj hmv
    exact ran
  | started | ended | foreign | signed => exact absurd hmv (by simp [Move.tx])

theorem treasury_of_worldStep (h : worldStep K d M w mv = some w') (hmv : mv.tx = none) :
    w'.treasury = w.treasury := by
  cases moved_of_step h with
  | idle | paid => exact absurd hmv (by simp [Move.tx])
  | started | ended | foreign | signed => rfl

/-- What every transaction keeps, every move keeps. -/
theorem worldStep_keeps {P : State W → Prop}
    (hstep : ∀ s (tx : Tx W d) s', P s → step K d s tx = some s' → P s')
    (hw : P w.treasury) (h : worldStep K d M w mv = some w') : P w'.treasury := by
  cases hmv : mv.tx with
  | none =>
    rw [treasury_of_worldStep h hmv]
    exact hw
  | some tx => exact hstep _ _ _ hw (step_of_worldStep h hmv)

/-- **The transactions of a run of the world are a run of the treasury.** -/
theorem run_treasury {w₀ : World W} {h : List (Call (World W) (Move W d))}
    (hr : Run (worldStep K d M) w₀ h w) :
    Run (step K d) w₀.treasury (view Move.tx World.treasury h) w.treasury :=
  hr.view (fun _ _ _ _ hs hmv => step_of_worldStep hs hmv)
    (fun _ _ _ hs hmv => treasury_of_worldStep hs hmv)

/-! ### Signatures for tokens -/

/-- **Of all a token can ask a signature for, the treasury signs one struct**: an
authorization from itself to the Gateway wallet, by a quorum. -/
theorem signed_receive {token : Address} {structHash : W} {block : Block} {sigs : SigOracle W}
    {signature : Bytes} {s : State W} (h0 : s.weights 0 = 0)
    (hvalid : isValidSignature K d s block sigs (M.digest block.chainid token structHash) signature
      token = some erc1271MagicValue) :
    ∃ a, structHash = receiveStruct K a ∧ a.fromAddr = d.treasury ∧ a.toAddr = d.gatewayWallet
      ∧ (s.allowedTokens token).eip712Name ≠ []
      ∧ ∃ ownerSigs k l, QuorumBlob sigs d.treasury s.toSigners
        (M.digest block.chainid token structHash) ownerSigs k l := by
  rw [isValidSignature_eq, Option.some.injEq] at hvalid
  split_ifs at hvalid with hc
  · obtain ⟨kind, payload, ownerSigs, -, hallow, -, k, l, hq⟩ :=
      (validateSignatureInternal_iff sigs h0).mp hc.2
    rcases hallow with ⟨-, intent, -, hdig, -⟩ | ⟨-, a, -, hdig, ha⟩
    · -- a burn intent is hashed under the domain of the Gateway wallet
      exact absurd (K.hashTyped_inj hdig).1 (gatewayDomainSeparator_ne K _ _ _ _)
    · have hstruct : receiveStruct K a = structHash := (K.hashTyped_inj hdig).2
      exact ⟨a, hstruct.symm, ha.fromAddr, ha.toAddr, ha.token, _, k, l, hq⟩
  · exact absurd hvalid (by decide)

/-! ### Allowances -/

/-- Nobody has an allowance but the Gateway wallet, for a token being swept. -/
def Swept {W : Type} (d : Deployment) (w : World W) : Prop :=
  ∀ t x, w.ledger.allowance t d.treasury x ≠ 0 → x = d.gatewayWallet ∧ t ∈ w.sweeping

omit [DecidableEq W] in
theorem swept_of_apply {op : Erc20.Op Address Address} {l : Erc20.Ledger Address Address}
    (hw : Swept d w) (hop : ∀ t x n, op ≠ .approve t d.treasury x n)
    (happ : op.apply w.ledger = some l) {s : State W} :
    Swept d ⟨s, l, w.sweeping⟩ := by
  intro t x hne
  have hle := Erc20.apply_allowance_le (t := t) (s := x) happ hop
  have hne : l.allowance t d.treasury x ≠ 0 := hne
  exact hw t x (by omega)

theorem swept_step (h0 : w.treasury.weights 0 = 0) (hw : Swept d w)
    (h : worldStep K d M w mv = some w') : Swept d w' := by
  cases moved_of_step h with
  | idle => exact hw
  | paid _ _ _ moved => exact swept_of_apply hw (by simp) moved
  | @started token bal =>
    intro t x hne
    by_cases hk : t = token ∧ x = d.gatewayWallet
    · exact ⟨hk.2, hk.1 ▸ List.mem_cons_self⟩
    · have hne : (w.ledger.setAllowance token d.treasury d.gatewayWallet bal.toNat).allowance t
        d.treasury x ≠ 0 := hne
      rw [Erc20.setAllowance_of_ne (fun hn => hk ⟨hn.1, hn.2.2⟩)] at hne
      exact ⟨(hw t x hne).1, List.mem_cons_of_mem _ (hw t x hne).2⟩
  | @ended token rest top =>
    intro t x hne
    have hne : (w.ledger.setAllowance token d.treasury d.gatewayWallet 0).allowance t d.treasury x
      ≠ 0 := hne
    by_cases hk : t = token ∧ x = d.gatewayWallet
    · obtain ⟨rfl, rfl⟩ := hk
      simp [Erc20.Ledger.setAllowance] at hne
    · rw [Erc20.setAllowance_of_ne (fun hn => hk ⟨hn.1, hn.2.2⟩)] at hne
      obtain ⟨hx, ht⟩ := hw t x hne
      rw [top] at ht
      refine ⟨hx, (List.mem_cons.mp ht).resolve_left (fun htok => hk ⟨htok, hx⟩)⟩
  | foreign other moved => exact swept_of_apply hw (Erc20.ne_approve other) moved
  | signed valid meaning moved =>
    obtain ⟨a, rfl, -⟩ := signed_receive h0 valid
    obtain rfl := M.receive_eq meaning
    exact swept_of_apply hw (by simp) moved

/-! ### Where a balance can go -/

/-- How a move has lowered the treasury's balance in `t`. -/
inductive Outflow (K : Keccak W) (d : Deployment) (w : World W) (w' : World W) (t : Address) :
    Move W d → Prop
  | paid {tx : Tx W d} {call : Bytes} {nonce : Uint256} {recipient : Bytes32} {amount : Uint256}
      (action : tx.action = .executeAdmin call nonce)
      (decoded : decodeAdminCall call = some (.transferToRecipient t recipient amount))
      (executable : Executable K tx.timestamp w.treasury call nonce)
      (allowed : w.treasury.allowedRecipients recipient = true)
      (exact_amount : w.ledger.balance t d.treasury
        = w'.ledger.balance t d.treasury + amount.toNat) :
      Outflow K d w w' t (.treasury tx)
  | pulled {dst : Address} {amount : ℕ} (sweeping : t ∈ w.sweeping) :
      Outflow K d w w' t (.foreign (.transferFrom t d.gatewayWallet d.treasury dst amount))
  | authorized {a : ReceiveAuth} {digest : W} {block : Block} {sigs : SigOracle W}
      {signature : Bytes} {ownerSigs : Bytes} {k : ℕ} {l : List Address}
      (fromAddr : a.fromAddr = d.treasury) (toAddr : a.toAddr = d.gatewayWallet)
      (token : (w.treasury.allowedTokens t).eip712Name ≠ [])
      (quorum : QuorumBlob sigs d.treasury w.treasury.toSigners digest ownerSigs k l) :
      Outflow K d w w' t (.signed t (receiveStruct K a) block sigs signature)

omit [DecidableEq W] in
/-- A transfer out of an account lowers the balance of its own token only, by its amount. -/
theorem transfer_lowers {l l' : Erc20.Ledger Address Address} {token src dst : Address} {n : ℕ}
    (h : (Erc20.Op.transfer token src dst n).apply l = some l')
    (hlow : l'.balance t src < l.balance t src) :
    t = token ∧ l.balance t src = l'.balance t src + n := by
  have hbal := Erc20.apply_balance h t src
  simp only [Erc20.Op.delta, Erc20.amountAt] at hbal
  split_ifs at hbal with hdst hsrc hsrc
  · exact absurd hbal (by omega)
  · exact absurd hbal (by omega)
  · exact ⟨hsrc.1, by omega⟩
  · exact absurd hbal (by omega)

/-- A payment that went through was executable, and its payee allowed. -/
theorem paid_outflow {tx : Tx W d} {s : State W} {call : Bytes} {nonce : Uint256} {token : Address}
    {recipient : Bytes32} {amount : Uint256} (ran : step K d w.treasury tx = some s)
    (ha : tx.action = .executeAdmin call nonce)
    (hdec : decodeAdminCall call = some (.transferToRecipient token recipient amount)) :
    Executable K tx.timestamp w.treasury call nonce
      ∧ w.treasury.allowedRecipients recipient = true := by
  have hx := toOption_eq_some.mp ran
  rw [exec, ha] at hx
  obtain ⟨hok, admin, hadmin, hrun⟩ := executeAdmin_eq_ok.mp hx
  obtain rfl := Option.some.inj (hdec.symm.trans hadmin)
  simp only [runAdmin, transferToRecipient, bind_eq_ok, require_eq_ok, exists_const] at hrun
  exact ⟨hok, hrun.1⟩

/-- **A balance falls in three ways.** -/
theorem outflow_of_step (h0 : w.treasury.weights 0 = 0) (hw : Swept d w)
    (h : worldStep K d M w mv = some w')
    (hlow : w'.ledger.balance t d.treasury < w.ledger.balance t d.treasury) :
    Outflow K d w w' t mv := by
  cases moved_of_step h with
  | idle | started | ended => exact absurd hlow (lt_irrefl _)
  | paid ran action decoded moved =>
    obtain ⟨rfl, hexact⟩ := transfer_lowers moved hlow
    obtain ⟨hok, hallowed⟩ := paid_outflow ran action decoded
    exact .paid action decoded hok hallowed hexact
  | @foreign op l other moved =>
    by_cases hpull : ∃ spender dst n, op = .transferFrom t spender d.treasury dst n
    · obtain ⟨spender, dst, n, rfl⟩ := hpull
      have hne : w.ledger.allowance t d.treasury spender ≠ 0 := by
        intro hz
        obtain ⟨m, hspend, -⟩ := Option.bind_eq_some_iff.mp moved
        obtain rfl := (Erc20.spend_eq_some hspend).2.2 hz
        have hle := Erc20.le_balance_of_transferFrom moved
        exact absurd hlow (by simp only; omega)
      obtain ⟨rfl, hsweep⟩ := hw t spender hne
      exact .pulled hsweep
    · have hle := Erc20.le_balance_of_ne moved other
        (fun spender dst n heq => hpull ⟨spender, dst, n, heq⟩)
      exact absurd hlow (Nat.not_lt.mpr hle)
  | signed valid meaning moved =>
    obtain ⟨a, rfl, hfrom, hto, htoken, ownerSigs, k, l, hq⟩ := signed_receive h0 valid
    obtain rfl := M.receive_eq meaning
    rw [hfrom] at moved
    obtain ⟨rfl, -⟩ := transfer_lowers moved hlow
    exact .authorized hfrom hto htoken hq

end Step

/-! ### Whole runs -/

section Runs

variable {W : Type} [DecidableEq W] {K : Keccak W} {d : Deployment} {M : Tokens K} {s₀ : State W}
  {l₀ : Erc20.Ledger Address Address} {w : World W} {h : List (Call (World W) (Move W d))}

/-- Every world that a deployment can reach. -/
theorem reachable {treasury : Address} {chainid : Uint256} {p : SignerParams} {pol : PolicyParams}
    (hd : deploy K treasury chainid p pol = .ok (d, s₀))
    (hl : ∀ t x, l₀.allowance t d.treasury x = 0)
    (hr : Run (worldStep K d M) ⟨s₀, l₀, []⟩ h w) : w.treasury.weights 0 = 0 ∧ Swept d w := by
  have hstart : Controlled d s₀ ∧ Swept d ⟨s₀, l₀, []⟩ :=
    ⟨deploy_controlled hd, fun t x hne => absurd (hl t x) hne⟩
  have hkept : Controlled d w.treasury ∧ Swept d w := by
    refine hr.invariant (P := fun w => Controlled d w.treasury ∧ Swept d w) hstart ?_
    intro w mv w' hw hstep
    exact ⟨worldStep_keeps (fun _ _ _ hs hs' => step_controlled hs hs') hw.1 hstep,
      swept_step hw.1.signers.weight_zero hw.2 hstep⟩
  exact ⟨hkept.1.signers.weight_zero, hkept.2⟩

/-- The quorum behind move `j`, which executes `call` under `nonce`: it was
queued earlier in the run by the owners still in force, and no other move
executes it. -/
structure Backed (K : Keccak W) (h : List (Call (World W) (Move W d))) (j : ℕ)
    (e : Call (World W) (Move W d)) (call : Bytes) (nonce : Uint256) : Prop where
  queued : ∃ (i : ℕ) (q : Call (World W) (Move W d)) (tx : Tx W d) (deadline : Uint256)
    (ownerSigs : MemBytes), i < j ∧ h[i]? = some q ∧ q.act = .treasury tx
    ∧ tx.action = .queueAdmin call nonce deadline ownerSigs
    ∧ HasQuorum d tx.sigs q.pre.treasury
      (queueDigest K d call nonce deadline q.pre.treasury.adminEpoch) ownerSigs
    ∧ q.pre.treasury.toSigners = e.pre.treasury.toSigners
    ∧ q.pre.treasury.adminTimelock = e.pre.treasury.adminTimelock
  once : ∀ (j' : ℕ) (e' : Call (World W) (Move W d)) (tx : Tx W d) (call' : Bytes),
    h[j']? = some e' → e'.act = .treasury tx → tx.action = .executeAdmin call' nonce → j' = j

theorem exec_of_treasury {i : ℕ} {e : Call (World W) (Move W d)} {tx : Tx W d}
    (hr : Run (worldStep K d M) ⟨s₀, l₀, []⟩ h w) (hi : h[i]? = some e)
    (he : e.act = .treasury tx) :
    exec K d e.pre.treasury tx = .ok e.post.treasury := by
  have hs := step_of_worldStep (hr.of_getElem hi).2 (by rw [he]; rfl)
  exact toOption_eq_some.mp hs

/-- The queueing behind an execution. -/
theorem origin_of_execution {j : ℕ} {e : Call (World W) (Move W d)} {tx : Tx W d} {call : Bytes}
    {nonce : Uint256} (hn : NoOps K s₀) (hr : Run (worldStep K d M) ⟨s₀, l₀, []⟩ h w)
    (hj : h[j]? = some e) (he : e.act = .treasury tx) (ha : tx.action = .executeAdmin call nonce) :
    ∃ i q tx' deadline ownerSigs, i < j ∧ h[i]? = some q ∧ q.act = .treasury tx'
      ∧ tx'.action = .queueAdmin call nonce deadline ownerSigs
      ∧ e.pre.treasury.usedNonces nonce = true
      ∧ (e.pre.treasury.adminOps nonce).epoch = q.pre.treasury.adminEpoch := by
  have hx := exec_of_treasury hr hj he
  rw [exec, ha] at hx
  obtain ⟨hok, -⟩ := executeAdmin_eq_ok.mp hx
  obtain ⟨i', q', call', deadline, ownerSigs, ho⟩ :=
    origin (run_treasury (hr.of_getElem hj).1) hn hok.found
  obtain rfl : call' = call := K.hash_inj (ho.callHash.symm.trans hok.call_eq.symm)
  obtain ⟨q, hq, hact, hpre, -⟩ := mem_view (List.mem_of_getElem? ho.at_index)
  obtain ⟨i, hi⟩ := List.mem_iff_getElem?.mp hq
  have hij : i < j := by
    have hlt := (List.getElem?_eq_some_iff.mp hi).1
    rw [List.length_take] at hlt
    omega
  rw [List.getElem?_take_of_lt hij] at hi
  have hmv : q.act = .treasury q'.act := by
    cases hqa : q.act with
    | treasury tx' =>
      rw [hqa] at hact
      rw [Option.some.inj hact]
    | sweepStart | sweepEnd | foreign | signed =>
      rw [hqa] at hact
      exact absurd hact (by simp [Move.tx])
  refine ⟨i, q, q'.act, deadline, ownerSigs, hij, hi, hmv, ho.action, ho.used, ?_⟩
  rw [ho.epoch, hpre]

theorem executed_of_execution {j : ℕ} {e : Call (World W) (Move W d)} {tx : Tx W d} {call : Bytes}
    {nonce : Uint256} (hn : NoOps K s₀) (hr : Run (worldStep K d M) ⟨s₀, l₀, []⟩ h w)
    (hj : h[j]? = some e) (he : e.act = .treasury tx) (ha : tx.action = .executeAdmin call nonce) :
    (e.pre.treasury.adminOps nonce).executed = false ∧ Executed nonce e.post.treasury := by
  have hx := exec_of_treasury hr hj he
  obtain ⟨-, -, -, -, -, -, -, -, -, hused, -⟩ := origin_of_execution hn hr hj he ha
  have hkept := stays_used hused (toOption_eq_some.mpr hx)
  rw [exec, ha] at hx
  obtain ⟨hok, admin, -, ran⟩ := executeAdmin_eq_ok.mp hx
  refine ⟨hok.not_executed, hkept, ?_⟩
  rw [(runAdmin_frame ran).adminOps, State.markExecuted]
  simp

theorem execution_unique {i j : ℕ} {c e : Call (World W) (Move W d)} {tx tx' : Tx W d}
    {call call' : Bytes} {nonce : Uint256} (hn : NoOps K s₀)
    (hr : Run (worldStep K d M) ⟨s₀, l₀, []⟩ h w) (hi : h[i]? = some c) (hj : h[j]? = some e)
    (hc : c.act = .treasury tx) (he : e.act = .treasury tx')
    (ha : tx.action = .executeAdmin call nonce) (ha' : tx'.action = .executeAdmin call' nonce) :
    ¬ i < j := by
  intro hij
  have hdone : Executed nonce e.pre.treasury :=
    hr.persists (P := fun w => Executed nonce w.treasury) hi hj hij
      (executed_of_execution hn hr hi hc ha).2
      (fun _ _ _ hw hstep => worldStep_keeps (fun _ _ _ hs hs' => stays_executed hs hs') hw hstep)
  have hopen := (executed_of_execution hn hr hj he ha').1
  rw [hdone.2] at hopen
  exact absurd hopen (by simp)

theorem backed {j : ℕ} {e : Call (World W) (Move W d)} {tx : Tx W d} {call : Bytes}
    {nonce : Uint256} (hn : NoOps K s₀) (hr : Run (worldStep K d M) ⟨s₀, l₀, []⟩ h w)
    (hj : h[j]? = some e) (he : e.act = .treasury tx) (ha : tx.action = .executeAdmin call nonce) :
    Backed K h j e call nonce := by
  obtain ⟨i, q, tx', deadline, ownerSigs, hij, hi, hq, haq, -, hepoch⟩ :=
    origin_of_execution hn hr hj he ha
  have hx := exec_of_treasury hr hj he
  rw [exec, ha] at hx
  have hok := (executeAdmin_eq_ok.mp hx).1
  have hxq := exec_of_treasury hr hi hq
  have hfirst := configStep_of_step (toOption_eq_some.mpr hxq)
  rw [exec, haq] at hxq
  have hquorum := (queueAdmin_eq_ok.mp hxq).2.2.1
  -- the epoch has not moved since the queueing, so neither has the configuration
  have hconfig : ConfigStep q.pre.treasury e.pre.treasury :=
    hr.persists (P := fun w => ConfigStep q.pre.treasury w.treasury) hi hj hij hfirst
      (fun _ _ _ hw hstep =>
        worldStep_keeps (fun _ _ _ hs hs' => hs.trans (configStep_of_step hs')) hw hstep)
  have hsame := hconfig.2 (hok.current.symm.trans hepoch)
  refine ⟨⟨i, q, tx', deadline, ownerSigs, hij, hi, hq, haq, hquorum, hsame.1.symm,
    hsame.2.symm⟩, ?_⟩
  intro j' e' txe call' hj' he' ha'
  have h1 := execution_unique hn hr hj hj' he he' ha ha'
  have h2 := execution_unique hn hr hj' hj he' he ha' ha
  omega

/-- **The treasury keeps its tokens.**  In every run of the world from a
deployment without allowances, re-entrant moves included: no account is left an
allowance but the Gateway wallet for a token under sweep; a move that lowers a
balance is one of the three kinds; and a payment among them was queued by a
quorum of the owners in force and is executed once. -/
theorem custody {treasury : Address} {chainid : Uint256} {p : SignerParams} {pol : PolicyParams}
    (hd : deploy K treasury chainid p pol = .ok (d, s₀))
    (hl : ∀ t x, l₀.allowance t d.treasury x = 0)
    (hr : Run (worldStep K d M) ⟨s₀, l₀, []⟩ h w) :
    (∀ t x, w.ledger.allowance t d.treasury x ≠ 0 → x = d.gatewayWallet ∧ t ∈ w.sweeping)
      ∧ (∀ (j : ℕ) (e : Call (World W) (Move W d)) (t : Address), h[j]? = some e →
        e.post.ledger.balance t d.treasury < e.pre.ledger.balance t d.treasury →
        Outflow K d e.pre e.post t e.act)
      ∧ ∀ (j : ℕ) (e : Call (World W) (Move W d)) (tx : Tx W d) (call : Bytes) (nonce : Uint256),
        h[j]? = some e → e.act = .treasury tx → tx.action = .executeAdmin call nonce →
        Backed K h j e call nonce := by
  refine ⟨(reachable hd hl hr).2, ?_, ?_⟩
  · intro j e t hj hlow
    obtain ⟨hpre, hstep⟩ := hr.of_getElem hj
    obtain ⟨h0, hw⟩ := reachable hd hl hpre
    exact outflow_of_step h0 hw hstep hlow
  · intro j e tx call nonce hj he ha
    exact backed (deploy_noOps hd) hr hj he ha

end Runs

/-! ### A run with a sweep -/

theorem receiveStruct_inj {W : Type} {K : Keccak W} {a b : ReceiveAuth}
    (h : receiveStruct K a = receiveStruct K b) : a = b := by
  have hd : receiveWithAuthorizationDigest K [] [] 0 0 a
      = receiveWithAuthorizationDigest K [] [] 0 0 b :=
    congrArg (K.hashTyped (domainSeparator K [] [] 0 0)) h
  exact (receiveWithAuthorizationDigest_inj K hd).2.2.2.2

/-- Tokens that know one struct, the deposit `soleAuth`. -/
def soleTokens : Tokens Keccak.symbolic where
  name _ := ascii "USDC"
  version _ := ascii "2"
  meaning token structHash :=
    if structHash = receiveStruct Keccak.symbolic soleAuth then
      some (.transfer token soleAuth.fromAddr soleAuth.toAddr soleAuth.value.toNat)
    else none
  receive_eq h := by
    obtain ⟨hs, hop⟩ := Option.ite_none_right_eq_some.mp h
    rw [receiveStruct_inj hs]
    exact (Option.some.inj hop).symm

/-- The treasury `0x2` holds `50` of the token `0x4`. -/
def soleLedger : Erc20.Ledger Address Address where
  balance t a := if t = 4 ∧ a = 2 then 50 else 0
  allowance _ _ _ := 0

/-- `soleLedger` while the Gateway wallet `0x3` may take the `50`. -/
def sweptLedger : Erc20.Ledger Address Address := soleLedger.setAllowance 4 2 3 50

/-- The Gateway wallet has taken `30` of them. -/
def pulledLedger : Erc20.Ledger Address Address :=
  ((sweptLedger.setAllowance 4 2 3 20).setBalance 4 2 20).credit 4 3 30

/-- A transaction that pays nobody is a move of the treasury alone. -/
theorem worldStep_of_step {W : Type} [DecidableEq W] {K : Keccak W} {d : Deployment} {M : Tokens K}
    {w : World W} {tx : Tx W d} {s : State W} (hsweep : tx.action.isSweep = false)
    (hpay : payment d tx.action = []) (hs : step K d w.treasury tx = some s) :
    worldStep K d M w (.treasury tx) = some { w with treasury := s } := by
  simp only [worldStep, hsweep, hpay, hs]
  rfl

theorem payment_timelockCall {W : Type} (nonce : Uint256) :
    payment soleDeployment (.executeAdmin timelockCall nonce : Action W) = [] := by
  have hdec : decodeAdminCall timelockCall = some (.setAdminTimelock 120) := by decide +kernel
  simp only [payment, hdec]

section

variable (D : Term)

/-- The move that queues `timelockCall`, with the worlds around it. -/
def queueMove : Call (World Term) (Move Term soleDeployment) :=
  ⟨⟨soleState Keccak.symbolic, soleLedger, []⟩, .treasury (queueTx Keccak.symbolic 1 D),
    ⟨queuedState Keccak.symbolic 1, soleLedger, []⟩⟩

def executeMove : Call (World Term) (Move Term soleDeployment) :=
  ⟨(queueMove D).post, .treasury (executeTx Keccak.symbolic 1 D),
    ⟨executedState Keccak.symbolic 1, soleLedger, []⟩⟩

def startMove : Call (World Term) (Move Term soleDeployment) :=
  ⟨⟨executedState Keccak.symbolic 1, soleLedger, []⟩, .sweepStart 4,
    ⟨executedState Keccak.symbolic 1, sweptLedger, [4]⟩⟩

def pullMove : Call (World Term) (Move Term soleDeployment) :=
  ⟨⟨executedState Keccak.symbolic 1, sweptLedger, [4]⟩, .foreign (.transferFrom 4 3 2 3 30),
    ⟨executedState Keccak.symbolic 1, pulledLedger, [4]⟩⟩

/-- The timelock is changed, then the Gateway wallet pulls in a sweep. -/
theorem soleWorldRun : Run (worldStep Keccak.symbolic soleDeployment soleTokens)
    ⟨soleState Keccak.symbolic, soleLedger, []⟩ [queueMove D, executeMove D, startMove, pullMove]
    ⟨executedState Keccak.symbolic 1, pulledLedger, [4]⟩ := by
  have hqueue := worldStep_of_step (M := soleTokens)
    (w := ⟨soleState Keccak.symbolic, soleLedger, []⟩) rfl rfl (queueTx_step Keccak.symbolic 1 D)
  have hexecute := worldStep_of_step (M := soleTokens)
    (w := ⟨queuedState Keccak.symbolic 1, soleLedger, []⟩) rfl (payment_timelockCall 1)
    (executeTx_step Keccak.symbolic 1 D)
  exact (((Run.nil.snoc hqueue).snoc hexecute).snoc rfl).snoc rfl

end

theorem custody_soleWorldRun :
    Outflow Keccak.symbolic soleDeployment pullMove.pre pullMove.post 4 pullMove.act
      ∧ Backed Keccak.symbolic [queueMove (.word 0), executeMove (.word 0), startMove, pullMove] 1
        (executeMove (.word 0)) timelockCall 1 := by
  have hl : ∀ t x, soleLedger.allowance t soleDeployment.treasury x = 0 := fun _ _ => rfl
  have hall := custody (soleDeploy _) hl (soleWorldRun (.word 0))
  exact ⟨hall.2.1 3 _ 4 rfl (by decide), hall.2.2 1 _ _ timelockCall 1 rfl rfl rfl⟩

end Bufi.Treasury
