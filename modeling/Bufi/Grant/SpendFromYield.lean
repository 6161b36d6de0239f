import Bufi.Evm.Erc4626
import Bufi.Grant.Presets
import Bufi.Recipient.Hook

/-!
# An agent that spends from yield

An account with the session key plugin, the recipient hook and a key that has the
spend-from-yield grant.  An operation of the agent is first validated, by the hook and
by the plugin, and later executed: its calls are counted and then made, or everything
is undone.  In between anything else may happen, at the plugin, as long as the key
keeps its grant, and on the market.

`paid` lists what leaves the account: what is transferred to somebody else, and what a
vault pays to somebody else for shares of the account.  The hook looks at the recipient
of a transfer, and the plugin counts it; but it is the target of a withdrawal that the
hook looks at, and nobody counts it.  `Sources` is that a call withdraws for the account
itself, and does not send the token to a vault.  Then everything paid goes to the
recipients and stays within the budget: `spendFromYield_kept`.
-/

namespace Bufi.Grant

open Bufi.Evm Bufi.Evm.Erc20 Bufi.Evm.Erc4626 Bufi.Js Bufi.Session Bufi.Recipient

/-! ### The calls of the account -/

/-- An amount of the token that leaves the account. -/
structure Payout where
  to' : Address
  amount : ℕ
  deriving DecidableEq

/-- The account of an agent: its plugins, and the token, vaults and recipients of the
grant.  `allowed` is its address book, and `foreign` is what any other call does. -/
structure Face (W S : Type) where
  env : Env W S
  lib : RecipientAddressLib
  codeLength : Address → ℕ
  addressBook : Address
  allowed : List Address
  account : Address
  key : Address
  token : Address
  vaults : List Address
  recipients : List Address
  foreign : Market Address → Session.Call → Option (Market Address × List Payout)

/-- The arguments of `withdraw` and `redeem`, as a vault decodes them. -/
def vaultArguments (data : Bytes) : Option (Uint256 × Address × Address) := do
  let a := data.drop 4
  return (← Abi.word a 0, ← Abi.address a 32, ← Abi.address a 64)

/-- What is sent to the account itself does not leave it. -/
def leaving (account to' : Address) (amount : ℕ) : List Payout :=
  if to' = account then [] else [⟨to', amount⟩]

section

variable {W S : Type} (f : Face W S) (m : Market Address) (call : Session.Call)

/-- A token reverts on a transfer to the zero address. -/
def performTransfer : Option (Market Address × List Payout) := do
  let (to', amount) ← tokenArguments call.data
  guard (call.value = 0 ∧ to' ≠ 0)
  let ledger ← m.ledger.move f.token f.account to' amount.toNat
  return ({ m with ledger }, leaving f.account to' amount.toNat)

def performWithdraw : Option (Market Address × List Payout) := do
  let (assets, receiver, owner) ← vaultArguments call.data
  guard (call.value = 0)
  let m ← withdraw f.token call.target f.account receiver owner assets.toNat m
  return (m, if owner = f.account then leaving f.account receiver assets.toNat else [])

def performRedeem : Option (Market Address × List Payout) := do
  let (shares, receiver, owner) ← vaultArguments call.data
  guard (call.value = 0)
  let (m, assets) ← redeem f.token call.target f.account receiver owner shares.toNat m
  return (m, if owner = f.account then leaving f.account receiver assets else [])

def perform : Option (Market Address × List Payout) :=
  if call.target = f.token ∧ selectorOf call.data = ERC20_TRANSFER_SELECTOR then
    performTransfer f m call
  else if call.target ∈ f.vaults ∧ selectorOf call.data = ERC4626_WITHDRAW_SELECTOR then
    performWithdraw f m call
  else if call.target ∈ f.vaults ∧ selectorOf call.data = ERC4626_REDEEM_SELECTOR then
    performRedeem f m call
  else f.foreign m call

end

/-- The calls one after another. -/
def performAll {W S : Type} (f : Face W S) :
    Market Address → List Session.Call → Option (Market Address × List Payout)
  | m, [] => some (m, [])
  | m, call :: calls => do
    let (m, first) ← perform f m call
    let (m, rest) ← performAll f m calls
    return (m, first ++ rest)

/-! ### The account and its agent -/

structure World (W S : Type) where
  plugin : State W S
  market : Market Address
  /-- Operations that are validated and not yet executed. -/
  pending : List (List Session.Call)
  now : Uint256
  /-- What has left the account, and when. -/
  paid : List (ℕ × Payout)

inductive Event
  | validate (timestamp : Uint256) (userOp : PackedUserOperation) (userOpHash : Bytes32)
  | execute (timestamp : Uint256) (calls : List Session.Call)
  | other (tx : Tx)
  | outside (market : Market Address)

def World.start {W S : Type} (plugin : State W S) (market : Market Address) (now : Uint256) :
    World W S :=
  ⟨plugin, market, [], now, []⟩

section

variable {W S : Type} [DecidableEq W] (f : Face W S) (w : World W S)

/-- Time does not go back. -/
def World.waits (timestamp : Uint256) : Prop :=
  w.now.toNat ≤ timestamp.toNat ∧ timestamp.toNat < 2 ^ 48

instance (timestamp : Uint256) : Decidable (w.waits timestamp) :=
  inferInstanceAs (Decidable (_ ∧ _))

/-- The hook and the plugin accept an operation of the key. -/
def validateOp (timestamp : Uint256) (userOp : PackedUserOperation) (userOpHash : Bytes32) :
    Option (World W S) := do
  let (calls, key) ← decodeExecute userOp.callData
  guard (key = f.key)
  let _ ← (preUserOpValidationHook f.lib f.codeLength f.account f.addressBook f.allowed 0
    userOp).toOption
  let plugin ← entryPointStep f.env w.plugin
    ⟨f.account, timestamp, .userOpValidationFunction 0 userOp userOpHash⟩
  return { w with plugin, pending := w.pending ++ [calls], now := timestamp }

/-- The calls are counted and made. -/
def executeBatch (timestamp : Uint256) (calls : List Session.Call) : Option (World W S) := do
  let plugin ← entryPointStep f.env w.plugin
    ⟨f.account, timestamp, .executeWithSessionKey calls f.key true⟩
  let (market, payouts) ← performAll f w.market calls
  return { w with
    plugin
    market
    paid := w.paid ++ payouts.map (fun payout => (timestamp.toNat, payout)) }

/-- One event.  An execution that fails is undone, and its operation is used up. -/
def faceStep : Event → Option (World W S)
  | .validate timestamp userOp userOpHash =>
    if w.waits timestamp then validateOp f w timestamp userOp userOpHash else none
  | .execute timestamp calls =>
    if w.waits timestamp ∧ calls ∈ w.pending then
      let w := { w with pending := w.pending.erase calls, now := timestamp }
      some ((executeBatch f w timestamp calls).getD w)
    else none
  | .other tx =>
    if w.waits tx.timestamp ∧ tx.session ≠ some (f.account, f.key)
        ∧ tx.reconfigures f.account f.key = false then
      (entryPointStep f.env w.plugin tx).map (fun plugin => { w with plugin, now := tx.timestamp })
    else none
  | .outside market => some { w with market }

end

/-! ### What a call pays -/

/-- `RecipientAddressLib` reads the recipient of a transfer. -/
def ReadsTransfers (lib : RecipientAddressLib) : Prop :=
  ∀ data to' amount, selectorOf data = ERC20_TRANSFER_SELECTOR →
    tokenArguments data = some (to', amount) → lib.getERC20TokenRecipient data = to'

section

variable {W S : Type} (f : Face W S)

/-- A call that the hook and the plugin let through. -/
def Permitted (call : Session.Call) : Prop :=
  (call.target = f.token ∧ selectorOf call.data = ERC20_TRANSFER_SELECTOR
    ∧ ∀ to' amount, tokenArguments call.data = some (to', amount) → to' ≠ 0 → to' ∈ f.allowed)
  ∨ (call.target ∈ f.vaults ∧ (selectorOf call.data = ERC4626_WITHDRAW_SELECTOR
    ∨ selectorOf call.data = ERC4626_REDEEM_SELECTOR))

/-- What is withdrawn for the account goes to the account, and the token is not sent to
a vault unless that is a recipient. -/
structure Sources (call : Session.Call) : Prop where
  withdraws : call.target ∈ f.vaults → ∀ amount receiver owner,
    vaultArguments call.data = some (amount, receiver, owner) → owner = f.account →
      receiver = f.account
  transfers : call.target = f.token → ∀ to' amount,
    tokenArguments call.data = some (to', amount) → to' ∈ f.vaults → to' ∈ f.recipients

variable {f} {m m' : Market Address} {call : Session.Call} {payouts : List Payout}

/-- The amount of a list of payouts. -/
def paidTotal (payouts : List Payout) : ℕ := (payouts.map Payout.amount).sum

theorem paidTotal_leaving_le (account to' : Address) (amount : ℕ) :
    paidTotal (leaving account to' amount) ≤ amount := by
  rw [leaving]
  split
  · exact Nat.zero_le _
  · simp [paidTotal]

theorem mem_leaving {account to' : Address} {amount : ℕ} {x : Payout}
    (h : x ∈ leaving account to' amount) : x.to' = to' := by
  rw [leaving] at h
  split at h
  · exact absurd h List.not_mem_nil
  · rw [List.mem_singleton.mp h]

theorem performTransfer_eq_some (h : performTransfer f m call = some (m', payouts)) :
    ∃ to' amount, tokenArguments call.data = some (to', amount) ∧ to' ≠ 0
      ∧ payouts = leaving f.account to' amount.toNat := by
  simp only [performTransfer, Option.bind_eq_bind, Option.bind_eq_some_iff, Option.guard_eq_some',
    Prod.exists, Option.pure_def, Option.some.injEq, Prod.mk.injEq] at h
  obtain ⟨to', amount, hargs, -, ⟨-, hzero⟩, ledger, -, -, rfl⟩ := h
  exact ⟨to', amount, hargs, hzero, rfl⟩

theorem performWithdraw_eq_some (h : performWithdraw f m call = some (m', payouts)) :
    ∃ amount receiver owner assets, vaultArguments call.data = some (amount, receiver, owner)
      ∧ payouts = if owner = f.account then leaving f.account receiver assets else [] := by
  simp only [performWithdraw, Option.bind_eq_bind, Option.bind_eq_some_iff, Prod.exists,
    Option.pure_def, Option.some.injEq, Prod.mk.injEq] at h
  obtain ⟨amount, receiver, owner, hargs, -, -, _, -, -, rfl⟩ := h
  exact ⟨amount, receiver, owner, amount.toNat, hargs, rfl⟩

theorem performRedeem_eq_some (h : performRedeem f m call = some (m', payouts)) :
    ∃ amount receiver owner assets, vaultArguments call.data = some (amount, receiver, owner)
      ∧ payouts = if owner = f.account then leaving f.account receiver assets else [] := by
  simp only [performRedeem, Option.bind_eq_bind, Option.bind_eq_some_iff, Prod.exists,
    Option.pure_def, Option.some.injEq, Prod.mk.injEq] at h
  obtain ⟨amount, receiver, owner, hargs, -, -, _, assets, -, -, rfl⟩ := h
  exact ⟨amount, receiver, owner, assets, hargs, rfl⟩

/-- A permitted call is one of those that the model knows. -/
theorem perform_of_permitted (h : perform f m call = some (m', payouts))
    (hpermitted : Permitted f call) :
    (call.target = f.token ∧ selectorOf call.data = ERC20_TRANSFER_SELECTOR
      ∧ performTransfer f m call = some (m', payouts))
    ∨ (call.target ∈ f.vaults ∧ ∃ amount receiver owner assets,
      vaultArguments call.data = some (amount, receiver, owner)
      ∧ payouts = if owner = f.account then leaving f.account receiver assets else []) := by
  rw [perform] at h
  split_ifs at h with htransfer hwithdraw hredeem
  · exact .inl ⟨htransfer.1, htransfer.2, h⟩
  · exact .inr ⟨hwithdraw.1, performWithdraw_eq_some h⟩
  · exact .inr ⟨hredeem.1, performRedeem_eq_some h⟩
  · rcases hpermitted with ⟨htarget, hsel, -⟩ | ⟨htarget, hsel | hsel⟩
    · exact absurd ⟨htarget, hsel⟩ htransfer
    · exact absurd ⟨htarget, hsel⟩ hwithdraw
    · exact absurd ⟨htarget, hsel⟩ hredeem

/-- The amount that is counted for a call. -/
def countedFor (token : Address) (call : Session.Call) : ℕ :=
  if call.target = token then spentAmount call.data else 0

theorem payouts_of_perform (hbook : ∀ a ∈ f.allowed, a ∈ f.vaults ∨ a ∈ f.recipients)
    (h : perform f m call = some (m', payouts)) (hpermitted : Permitted f call)
    (hsources : Sources f call) :
    (∀ x ∈ payouts, x.to' ∈ f.recipients) ∧ paidTotal payouts ≤ countedFor f.token call := by
  rcases perform_of_permitted h hpermitted with ⟨htarget, hsel, htransfer⟩ | ⟨htarget, hvault⟩
  · obtain ⟨to', amount, hargs, hzero, rfl⟩ := performTransfer_eq_some htransfer
    constructor
    · intro x hx
      rw [mem_leaving hx]
      rcases hpermitted with ⟨-, -, hallowed⟩ | ⟨-, hsel' | hsel'⟩
      · rcases hbook to' (hallowed to' amount hargs hzero) with hv | hr
        · exact hsources.transfers htarget to' amount hargs hv
        · exact hr
      · exact absurd (hsel.symm.trans hsel') (by decide)
      · exact absurd (hsel.symm.trans hsel') (by decide)
    · have hspent : spentAmount call.data = amount.toNat := by
        rw [spentAmount, hsel, if_pos (by decide), hargs]
        rfl
      rw [countedFor, if_pos htarget, hspent]
      exact paidTotal_leaving_le _ _ _
  · obtain ⟨amount, receiver, owner, assets, hargs, rfl⟩ := hvault
    have hnone : (if owner = f.account then leaving f.account receiver assets else []) = [] := by
      split
      · rename_i howner
        rw [leaving, if_pos (hsources.withdraws htarget amount receiver owner hargs howner)]
      · rfl
    rw [hnone]
    exact ⟨fun x hx => absurd hx List.not_mem_nil, Nat.zero_le _⟩

theorem payouts_of_performAll (hbook : ∀ a ∈ f.allowed, a ∈ f.vaults ∨ a ∈ f.recipients)
    {calls : List Session.Call} (h : performAll f m calls = some (m', payouts))
    (hpermitted : ∀ call ∈ calls, Permitted f call) (hsources : ∀ call ∈ calls, Sources f call) :
    (∀ x ∈ payouts, x.to' ∈ f.recipients)
      ∧ paidTotal payouts ≤ (calls.map (countedFor f.token)).sum := by
  induction calls generalizing m payouts with
  | nil =>
    rw [performAll, Option.some.injEq, Prod.mk.injEq] at h
    rw [← h.2]
    exact ⟨fun x hx => absurd hx List.not_mem_nil, Nat.zero_le _⟩
  | cons call calls ih =>
    simp only [performAll, Option.bind_eq_bind, Option.bind_eq_some_iff, Prod.exists,
      Option.pure_def, Option.some.injEq, Prod.mk.injEq] at h
    obtain ⟨m₁, first, hfirst, m₂, rest, hrest, rfl, rfl⟩ := h
    obtain ⟨hto, hle⟩ := payouts_of_perform hbook hfirst (hpermitted call List.mem_cons_self)
      (hsources call List.mem_cons_self)
    obtain ⟨hto', hle'⟩ := ih hrest (fun c hc => hpermitted c (List.mem_cons_of_mem call hc))
      (fun c hc => hsources c (List.mem_cons_of_mem call hc))
    constructor
    · intro x hx
      rcases List.mem_append.mp hx with hx | hx
      · exact hto x hx
      · exact hto' x hx
    · rw [paidTotal, List.map_append, List.sum_append, List.map_cons, List.sum_cons]
      exact Nat.add_le_add hle hle'

theorem total_spendEntries (timestamp : Uint256) (b : Budget) (token : Address)
    (calls : List Session.Call) :
    total (spendEntries timestamp b (callsTo token calls)) = (calls.map (countedFor token)).sum := by
  induction calls generalizing b with
  | nil => rfl
  | cons call calls ih =>
    rw [List.map_cons, List.sum_cons, countedFor]
    by_cases htarget : call.target = token
    · rw [callsTo, List.filter_cons_of_pos (by simpa using htarget), spendEntries, total_cons,
        if_pos htarget, ← callsTo, ih]
    · rw [callsTo, List.filter_cons_of_neg (by simpa using htarget), if_neg htarget, Nat.zero_add,
        ← callsTo, ih]

end

/-! ### The invariant -/

section

variable {W S : Type}

/-- The key with its grant: what it may call, and the ledger of its budget. -/
structure PluginKept (f : Face W S) (limit : Uint256) (interval : Uint48) (id : Bytes32)
    (s : State W S) (l : List Entry) : Prop where
  registry : Registry f.env f.account s
  hasId : HasId f.env f.account f.key id s
  access : YieldAccess f.token (· ∈ f.vaults) (s.permissionsOf f.env.keccak f.account id)
  budget : TokenKept limit interval (s.contractDataOf f.env.keccak f.account id f.token) l

/-- What is paid goes to the recipients, and is covered by the ledger. -/
structure Spending (f : Face W S) (limit : Uint256) (interval : Uint48) (id : Bytes32)
    (w : World W S) (l : List Entry) : Prop where
  plugin : PluginKept f limit interval id w.plugin l
  time : ∀ e ∈ l, e.time ≤ w.now.toNat
  pending : ∀ calls ∈ w.pending, ∀ call ∈ calls, Permitted f call
  paid : ∀ x ∈ w.paid, x.2.to' ∈ f.recipients
  covered : Covers l (w.paid.map (fun x => ⟨x.1, x.2.amount, false⟩))

variable [DecidableEq W] {f : Face W S} {limit : Uint256} {interval : Uint48} {id : Bytes32}
  {s s' : State W S} {w w' : World W S} {l : List Entry}

theorem PluginKept.step (h : PluginKept f limit interval id s l) {tx : Tx}
    (hkeep : tx.reconfigures f.account f.key = false)
    (hstep : entryPointStep f.env s tx = some s') (h48 : tx.timestamp.toNat < 2 ^ 48)
    (htime : ∀ e ∈ l, e.time ≤ tx.timestamp.toNat) :
    PluginKept f limit interval id s'
      (l ++ tokenEntries f.env f.account f.key id f.token ⟨s, tx, s'⟩) := by
  obtain ⟨hid, hkey⟩ := keyStep_of_step h.registry h.hasId hkeep hstep
  exact ⟨h.registry.exec (exec_of_entryPointStep hstep), hid,
    h.access.of_sameAccess (sameAccess_of_keyStep h.hasId hkey),
    h.budget.step h.hasId hkey h48 htime⟩

omit [DecidableEq W] in
/-- A call on the access list is one of the grant. -/
theorem target_of_accepts (h : PluginKept f limit interval id s l) {target : Address} {data : Bytes}
    (haccepts : Session.Accepts f.env.keccak s f.account id target data) :
    (target = f.token ∧ selectorOf data = ERC20_TRANSFER_SELECTOR) ∨ (target ∈ f.vaults ∧
      (selectorOf data = ERC4626_WITHDRAW_SELECTOR ∨ selectorOf data = ERC4626_REDEEM_SELECTOR)) := by
  have htype : (s.sessionKeyDataOf f.env.keccak f.account id).contractAccessControlType =
    .allowlist := h.access.accessType
  refine h.access.functions target (selectorOf data) ?_
  rw [Session.Accepts, htype] at haccepts
  simp only [checkCallPermissions] at haccepts
  split at haccepts
  · exact absurd haccepts Bool.false_ne_true
  · rename_i hlist
    have honList : (s.contractDataOf f.env.keccak f.account id target).isOnList = true := by
      simpa using hlist
    have hcheck : (s.contractDataOf f.env.keccak f.account id target).checkSelectors = true :=
      h.access.checkSelectors target honList
    rw [hcheck, if_neg (by decide), checkERC20Selector] at haccepts
    split at haccepts
    · exact absurd haccepts Bool.false_ne_true
    · exact haccepts

omit [DecidableEq W] in
/-- **The hook and the plugin let permitted calls through only.** -/
theorem permitted_of_validated (hlib : ReadsTransfers f.lib)
    (h : PluginKept f limit interval id s l) {call : Session.Call}
    (haccepts : Session.Accepts f.env.keccak s f.account id call.target call.data)
    (hhook : verifyRecipient f.lib f.codeLength f.account f.allowed call = .ok ()) :
    Permitted f call := by
  have htarget := target_of_accepts h haccepts
  by_cases hvalue : call.value = 0
  · rcases htarget with ⟨htoken, hsel⟩ | hvault
    · refine .inl ⟨htoken, hsel, fun to' amount hargs hzero => ?_⟩
      have hmem := mem_of_verifyRecipient hhook hvalue
      have hread : recipientOf f.lib call.target call.data = to' := by
        simp only [recipientOf, hlib call.data to' amount hsel hargs, if_neg hzero]
      rwa [hread] at hmem
    · exact .inr hvault
  · have hdata := (data_of_verifyRecipient hhook hvalue).1
    rw [hdata] at htarget
    rcases htarget with ⟨-, hsel⟩ | ⟨-, hsel | hsel⟩
    · exact absurd hsel (by decide)
    · exact absurd hsel (by decide)
    · exact absurd hsel (by decide)

theorem Spending.validate (hlib : ReadsTransfers f.lib) (h : Spending f limit interval id w l)
    {timestamp : Uint256} {userOp : PackedUserOperation} {userOpHash : Bytes32}
    (hwait : w.waits timestamp) (hstep : validateOp f w timestamp userOp userOpHash = some w') :
    Spending f limit interval id w' l := by
  simp only [validateOp, Option.bind_eq_bind, Option.bind_eq_some_iff, Option.guard_eq_some',
    Prod.exists, Option.pure_def, Option.some.injEq, toOption_eq_some] at hstep
  obtain ⟨calls, key, hdecode, -, rfl, v, hhook, plugin, hplugin, rfl⟩ := hstep
  have hkept := h.plugin.step (by simp [Tx.reconfigures]) hplugin hwait.2
    (fun e he => (h.time e he).trans hwait.1)
  rw [tokenEntries, List.append_nil] at hkept
  refine { h with plugin := hkept, time := fun e he => (h.time e he).trans hwait.1, pending := ?_ }
  intro calls' hcalls' call hcall
  rcases List.mem_append.mp hcalls' with hcalls' | hcalls'
  · exact h.pending calls' hcalls' call hcall
  · rw [List.mem_singleton.mp hcalls'] at hcall
    obtain ⟨calls'', key', hdecode', hverified⟩ := verified_of_hook hhook
    rw [hdecode, Option.some.injEq, Prod.mk.injEq] at hdecode'
    obtain ⟨rfl, -⟩ := hdecode'
    exact permitted_of_validated hlib h.plugin
      (accepts_of_validation h.plugin.hasId hplugin hdecode call hcall) (hverified call hcall)

theorem Spending.execute (hbook : ∀ a ∈ f.allowed, a ∈ f.vaults ∨ a ∈ f.recipients)
    (h : Spending f limit interval id w l) {timestamp : Uint256} {calls : List Session.Call}
    (h48 : timestamp.toNat < 2 ^ 48) (hnow : w.now = timestamp)
    (hpermitted : ∀ call ∈ calls, Permitted f call) (hsources : ∀ call ∈ calls, Sources f call)
    (hstep : executeBatch f w timestamp calls = some w') :
    ∃ l', Spending f limit interval id w' l' := by
  simp only [executeBatch, Option.bind_eq_bind, Option.bind_eq_some_iff, Prod.exists,
    Option.pure_def, Option.some.injEq] at hstep
  obtain ⟨plugin, hplugin, market, payouts, hperform, rfl⟩ := hstep
  have hkept := h.plugin.step (by simp [Tx.reconfigures]) hplugin h48
    (fun e he => hnow ▸ h.time e he)
  obtain ⟨hto, hle⟩ := payouts_of_performAll hbook hperform hpermitted hsources
  have hentries : ∀ e ∈ tokenEntries f.env f.account f.key id f.token
      ⟨w.plugin, ⟨f.account, timestamp, .executeWithSessionKey calls f.key true⟩, plugin⟩,
      e.time = timestamp.toNat := tokenEntries_time _
  refine ⟨_, hkept, ?_, h.pending, ?_, ?_⟩
  · intro e he
    rcases List.mem_append.mp he with he | he
    · exact h.time e he
    · rw [hentries e he, hnow]
  · intro x hx
    rcases List.mem_append.mp hx with hx | hx
    · exact h.paid x hx
    · obtain ⟨payout, hpayout, rfl⟩ := List.mem_map.mp hx
      exact hto payout hpayout
  · rw [List.map_append]
    refine h.covered.append hentries ?_ ?_
    · intro e he
      obtain ⟨x, hx, rfl⟩ := List.mem_map.mp he
      obtain ⟨payout, -, rfl⟩ := List.mem_map.mp hx
      rfl
    · simp only [tokenEntries, Tx.session, if_true]
      rw [total_spendEntries, List.map_map, total, List.map_map]
      exact hle

/-- The calls of an execution source what they spend. -/
def SourcesFor (f : Face W S) : Event → Prop
  | .execute _ calls => ∀ call ∈ calls, Sources f call
  | _ => True

/-- **A step in which the calls source what they spend keeps the invariant.** -/
theorem Spending.step (hlib : ReadsTransfers f.lib)
    (hbook : ∀ a ∈ f.allowed, a ∈ f.vaults ∨ a ∈ f.recipients)
    (h : Spending f limit interval id w l) {event : Event} (hstep : faceStep f w event = some w')
    (hsources : SourcesFor f event) : ∃ l', Spending f limit interval id w' l' := by
  cases event with
  | validate timestamp userOp userOpHash =>
    rw [faceStep, Option.ite_none_right_eq_some] at hstep
    exact ⟨l, h.validate hlib hstep.1 hstep.2⟩
  | execute timestamp calls =>
    rw [faceStep, Option.ite_none_right_eq_some, Option.some.injEq] at hstep
    obtain ⟨⟨hwait, hpending⟩, hstep⟩ := hstep
    have hused : Spending f limit interval id
        { w with pending := w.pending.erase calls, now := timestamp } l :=
      { h with
        time := fun e he => (h.time e he).trans hwait.1
        pending := fun c hc => h.pending c (List.mem_of_mem_erase hc) }
    cases hbatch : executeBatch f { w with pending := w.pending.erase calls, now := timestamp }
        timestamp calls with
    | none =>
      rw [hbatch] at hstep
      exact ⟨l, hstep ▸ hused⟩
    | some w₁ =>
      rw [hbatch] at hstep
      obtain ⟨l', hl'⟩ := hused.execute hbook hwait.2 rfl (h.pending calls hpending) hsources hbatch
      exact ⟨l', hstep ▸ hl'⟩
  | other tx =>
    rw [faceStep, Option.ite_none_right_eq_some, Option.map_eq_some_iff] at hstep
    obtain ⟨⟨hwait, hsession, hkeep⟩, plugin, hplugin, rfl⟩ := hstep
    have hkept := h.plugin.step hkeep hplugin hwait.2 (fun e he => (h.time e he).trans hwait.1)
    rw [tokenEntries_of_session_ne hsession, List.append_nil] at hkept
    exact ⟨l, { h with plugin := hkept, time := fun e he => (h.time e he).trans hwait.1 }⟩
  | outside market =>
    rw [faceStep, Option.some.injEq] at hstep
    exact ⟨l, hstep ▸ { h with }⟩

/-! ### Whole runs -/

/-- Within any time shorter than the interval at most twice the limit is paid, and
without an interval at most the limit at all. -/
def PaidWithin (limit interval : ℕ) (paid : List (ℕ × Payout)) : Prop :=
  (interval = 0 → paidTotal (paid.map Prod.snd) ≤ limit) ∧
    (0 < interval → ∀ first last, last < first + interval →
      paidTotal ((paid.filter (fun x => first ≤ x.1 ∧ x.1 ≤ last)).map Prod.snd) ≤ 2 * limit)

omit [DecidableEq W] in
theorem Spending.paidWithin (h : Spending f limit interval id w l) :
    PaidWithin limit.toNat interval.toNat w.paid := by
  have htotal : ∀ paid : List (ℕ × Payout),
      paidTotal (paid.map Prod.snd) = total (paid.map (fun x => ⟨x.1, x.2.amount, false⟩)) := by
    intro paid
    rw [paidTotal, total, List.map_map, List.map_map]
    rfl
  obtain ⟨hnever, hwindow⟩ := h.plugin.budget.kept.withinBudget
  constructor
  · intro hzero
    rw [htotal]
    exact h.covered.total_le.trans (hnever hzero)
  · intro hpos first last hshort
    have hle := (h.covered.window_le first last).trans ((hwindow hpos).2.2 first last hshort)
    rw [window, List.filter_map] at hle
    rw [htotal]
    exact hle

/-- The account is the one that the parameters of the grant are for, and its address
book has the vaults and the recipients. -/
structure Serves (f : Face W S) (p : SpendFromYieldGrantParameters) : Prop where
  token : addressOf p.token = some f.token
  vaults : ∀ a, a ∈ f.vaults ↔ Names p.vaults a
  recipients : ∀ a, a ∈ f.recipients ↔ Names p.recipients a
  allowed : ∀ a, a ∈ f.allowed ↔ a ∈ f.vaults ∨ a ∈ f.recipients

variable {p : SpendFromYieldGrantParameters} {g : BufiGrant} {checksumAddress : String → String}
  {updates : List Bytes} {tag : Bytes32} {now : Uint256} {m : Market Address}
  {h₀ : List (Evm.Call (State W S) Tx)} {history : List (Evm.Call (World W S) Event)}

/-- A key that has just been added with the grant. -/
theorem spending_start (hgrant : spendFromYieldGrant p = .ok g)
    (hbuild : buildBufiGrant checksumAddress g = .ok updates)
    (hlimit : p.budget.limit ≠ 2 ^ 256 - 1) (hserves : Serves f p)
    (hrun₀ : Run (Session.step f.env) (State.initial f.env.set) h₀ s)
    (hadd : Session.step f.env s ⟨f.account, now, .addSessionKey f.key tag updates⟩ = some s') :
    ∃ limit interval id, p.budget.limit = (limit : Uint256).toNat
      ∧ (interval : Uint48).toNat = p.budget.refreshIntervalSeconds.toNat
      ∧ Spending f limit interval id (World.start s' m now) [] := by
  have hexec : exec f.env s ⟨f.account, now, .addSessionKey f.key tag updates⟩ = .ok s' :=
    toOption_eq_some.mp hadd
  have hkey : addSessionKey f.env now f.account s f.key tag updates = .ok s' := hexec
  have hregistry := registry_of_run hrun₀ f.account
  have hadded := addSessionKey_eq_ok hkey
  have hstarts := startsWith_of_keyAdded hregistry hadded
  rw [StartsWith] at hstarts
  obtain ⟨token, htoken, haccess, hlimited, hamount, hinterval⟩ :=
    yield_of_build hgrant hbuild hlimit hstarts
  obtain rfl : f.token = token := Option.some.inj (hserves.token.symm.trans htoken)
  have hvaults : (fun a => a ∈ f.vaults) = Names p.vaults :=
    funext fun a => propext (hserves.vaults a)
  refine ⟨_, _, s'.sessionKeyIdOf f.env.keccak f.account f.key, hamount, hinterval, ?_⟩
  refine ⟨⟨hregistry.exec hexec, ⟨(hadded.contains f.key).mpr (.inl rfl), rfl⟩, ?_, ⟨hlimited, ?_⟩⟩,
    ?_, ?_, ?_, .nil⟩
  · rw [hvaults]
    exact haccess
  · exact SpendKept.nil _
  · exact fun e he => absurd he List.not_mem_nil
  · exact fun calls hc => absurd hc List.not_mem_nil
  · exact fun x hx => absurd hx List.not_mem_nil

theorem spending_of_run (hlib : ReadsTransfers f.lib)
    (hbook : ∀ a ∈ f.allowed, a ∈ f.vaults ∨ a ∈ f.recipients) {w₀ : World W S}
    (hstart : Spending f limit interval id w₀ l) (hrun : Run (faceStep f) w₀ history w)
    (hsources : ∀ c ∈ history, SourcesFor f c.act) : ∃ l', Spending f limit interval id w l' := by
  induction hrun with
  | nil => exact ⟨l, hstart⟩
  | @snoc history w w' event hrun hstep ih =>
    obtain ⟨l', hl'⟩ := ih (fun c hc => hsources c (List.mem_append_left _ hc))
    exact hl'.step hlib hbook hstep
      (hsources _ (List.mem_append_right _ (List.mem_singleton_self _)))

/-- **The spend-from-yield grant keeps its budget** in every run of the agent in which
what is withdrawn for the account goes to the account and the token is not sent to a
vault: everything that leaves the account goes to the recipients, within the budget. -/
theorem spendFromYield_kept (hgrant : spendFromYieldGrant p = .ok g)
    (hbuild : buildBufiGrant checksumAddress g = .ok updates)
    (hlimit : p.budget.limit ≠ 2 ^ 256 - 1) (hserves : Serves f p) (hlib : ReadsTransfers f.lib)
    (hrun₀ : Run (Session.step f.env) (State.initial f.env.set) h₀ s)
    (hadd : Session.step f.env s ⟨f.account, now, .addSessionKey f.key tag updates⟩ = some s')
    (hrun : Run (faceStep f) (World.start s' m now) history w)
    (hsources : ∀ c ∈ history, SourcesFor f c.act) :
    (∀ x ∈ w.paid, x.2.to' ∈ f.recipients) ∧
      PaidWithin p.budget.limit.toNat p.budget.refreshIntervalSeconds.toNat w.paid := by
  obtain ⟨limit, interval, id, hamount, hinterval, hstart⟩ :=
    spending_start hgrant hbuild hlimit hserves hrun₀ hadd
  have hbook : ∀ a ∈ f.allowed, a ∈ f.vaults ∨ a ∈ f.recipients :=
    fun a ha => (hserves.allowed a).mp ha
  obtain ⟨l, hspending⟩ := spending_of_run hlib hbook hstart hrun hsources
  refine ⟨hspending.paid, ?_⟩
  have hwithin := hspending.paidWithin
  rw [hinterval] at hwithin
  rw [hamount, Int.toNat_natCast]
  exact hwithin

end

/-! ### A withdrawal to somebody else -/

def vault : Address := 0x500
def stranger : Address := 0x600

/-- 100 of the token every 1000 seconds, out of one vault, to the next agent. -/
def yieldParams : SpendFromYieldGrantParameters where
  token := "0x0000000000000000000000000000000000000400"
  vaults := ["0x0000000000000000000000000000000000000500"]
  recipients := ["0x0000000000000000000000000000000000000300"]
  budget := ⟨100, .ofNat 1000⟩
  expiry := ⟨none, .ofNat 100000⟩
  gas := none
  requiredPaymaster := none
  includeRedeem := false

def yieldGrant : BufiGrant :=
  grant [⟨yieldParams.token, some [ERC20_TRANSFER_SELECTOR]⟩,
    ⟨"0x0000000000000000000000000000000000000500", some [ERC4626_WITHDRAW_SELECTOR]⟩]
    yieldParams.expiry (some (yieldParams.token, yieldParams.budget)) none none

def yieldUpdates : List Bytes := ((buildBufiGrant id yieldGrant).toOption).getD []

/-- The recipient of a transfer or an approval; nothing else is read. -/
def transferLib : RecipientAddressLib where
  getERC20TokenRecipient data :=
    if isAllowedERC20Function (selectorOf data) then (tokenArguments data).elim 0 Prod.fst else 0
  getERC1155TokenRecipient _ := 0
  getERC721TokenRecipient _ := 0

def yieldFace : Face Term (List Address) where
  env := agentEnv
  lib := transferLib
  codeLength _ := 1
  addressBook := 0x700
  allowed := [vault, nextAgent]
  account := wallet
  key := agent
  token := token
  vaults := [vault]
  recipients := [nextAgent]
  foreign _ _ := none

/-- The account has shares of a vault with 1000 of the token. -/
def yieldMarket : Market Address where
  ledger :=
    { balance := fun t a => if (t = token ∧ a = vault) ∨ (t = vault ∧ a = wallet) then 1000 else 0
      allowance := fun _ _ _ => 0 }
  previewWithdraw _ n := n
  previewRedeem _ n := n

/-- A call as a tuple of the calls of `executeWithSessionKey`. -/
def callTuple (call : Session.Call) : Bytes :=
  [call.target.toNat, call.value.toNat, 0x60, call.data.length].flatMap (beBytes 32)
    ++ call.data ++ List.replicate ((32 - call.data.length % 32) % 32) 0

def callOffsets : ℕ → List Session.Call → List ℕ
  | _, [] => []
  | p, call :: calls => p :: callOffsets (p + (callTuple call).length) calls

def executeOp (calls : List Session.Call) : PackedUserOperation :=
  { transferUserOp 0 with
    callData := encodeCall 0x31d99c2c ([0x40, agent.toNat, calls.length]
      ++ callOffsets (32 * calls.length) calls) ++ calls.flatMap callTuple }

def withdrawCall (amount : ℕ) (receiver : Address) : Session.Call :=
  ⟨vault, 0, encodeCall ERC4626_WITHDRAW_SELECTOR [amount, receiver.toNat, wallet.toNat]⟩

/-- What is paid after an operation is validated and executed. -/
def paidAfter (calls : List Session.Call) : Option (List (ℕ × Payout)) :=
  ((Session.step agentEnv (State.initial agentEnv.set)
    (walletTx (.addSessionKey agent 0 yieldUpdates))).bind (fun s =>
      (faceStep yieldFace (World.start s yieldMarket 1000)
        (.validate 1100 (executeOp calls) 0)).bind (fun w =>
          faceStep yieldFace w (.execute 1200 calls)))).map World.paid

theorem yieldGrant_compiles :
    spendFromYieldGrant yieldParams = .ok yieldGrant
      ∧ buildBufiGrant id yieldGrant = .ok yieldUpdates := by
  refine ⟨?_, ?_⟩
  · exact toOption_eq_some.mp (by decide +kernel)
  · refine toOption_eq_some.mp ?_
    decide +kernel

theorem run_of_paidAfter {calls : List Session.Call} {paid : List (ℕ × Payout)}
    (h : paidAfter calls = some paid) :
    ∃ s history w, Session.step agentEnv (State.initial agentEnv.set)
        (walletTx (.addSessionKey agent 0 yieldUpdates)) = some s
      ∧ Run (faceStep yieldFace) (World.start s yieldMarket 1000) history w ∧ w.paid = paid
      ∧ history.map Evm.Call.act = [.validate 1100 (executeOp calls) 0, .execute 1200 calls] := by
  simp only [paidAfter, Option.map_eq_some_iff, Option.bind_eq_some_iff] at h
  obtain ⟨w, ⟨s, hs, w₁, hvalidate, hexecute⟩, rfl⟩ := h
  exact ⟨s, _, w, hs, (Run.nil.snoc hvalidate).snoc hexecute, rfl, rfl⟩

theorem yieldFace_serves : Serves yieldFace yieldParams where
  token := by decide +kernel
  vaults a := by
    have hvault : addressOf "0x0000000000000000000000000000000000000500" = some vault := by
      decide +kernel
    simp only [Names, yieldParams, yieldFace, List.mem_singleton, exists_eq_left, hvault,
      Option.some.injEq]
    exact eq_comm
  recipients a := by
    have hrecipient : addressOf "0x0000000000000000000000000000000000000300" = some nextAgent := by
      decide +kernel
    simp only [Names, yieldParams, yieldFace, List.mem_singleton, exists_eq_left, hrecipient,
      Option.some.injEq]
    exact eq_comm
  allowed a := by simp [yieldFace]

theorem transferLib_reads : ReadsTransfers transferLib := by
  intro data to' amount hsel hargs
  simp only [transferLib, hsel]
  rw [if_pos (by decide), hargs]
  rfl

theorem paidAfter_own :
    paidAfter [withdrawCall 60 wallet, transferCall 60] = some [(1200, ⟨nextAgent, 60⟩)] := by
  decide +kernel

theorem paidAfter_stranger :
    paidAfter [withdrawCall 1000 stranger] = some [(1200, ⟨stranger, 1000⟩)] := by
  decide +kernel

/-- The agent withdraws 60 for the account and pays them to the recipient. -/
theorem spendFromYield_kept_own :
    ∃ w : World Term (List Address), w.paid = [(1200, ⟨nextAgent, 60⟩)]
      ∧ (∀ x ∈ w.paid, x.2.to' ∈ yieldFace.recipients) ∧ PaidWithin 100 1000 w.paid := by
  obtain ⟨s, history, w, hadd, hrun, hpaid, hacts⟩ := run_of_paidAfter paidAfter_own
  have hown : ∀ call ∈ [withdrawCall 60 wallet, transferCall 60], Sources yieldFace call := by
    intro call hcall
    simp only [List.mem_cons, List.not_mem_nil, or_false] at hcall
    rcases hcall with rfl | rfl
    · have hargs : vaultArguments (withdrawCall 60 wallet).data = some (60, wallet, wallet) := by
        decide +kernel
      refine ⟨fun _ amount receiver owner h _ => ?_, fun h => absurd h (by decide)⟩
      rw [hargs, Option.some.injEq, Prod.mk.injEq, Prod.mk.injEq] at h
      exact h.2.1.symm
    · have hargs : tokenArguments (transferCall 60).data = some (nextAgent, 60) := by
        decide +kernel
      refine ⟨fun h => absurd h (by decide), fun _ to' amount h _ => ?_⟩
      rw [hargs, Option.some.injEq, Prod.mk.injEq] at h
      rw [← h.1]
      exact List.mem_singleton_self _
  have hsources : ∀ c ∈ history, SourcesFor yieldFace c.act := by
    intro c hc
    have hact := List.mem_map_of_mem (f := Evm.Call.act) hc
    rw [hacts] at hact
    simp only [List.mem_cons, List.not_mem_nil, or_false] at hact
    rcases hact with hact | hact
    · rw [hact]
      trivial
    · rw [hact]
      exact hown
  exact ⟨w, hpaid, spendFromYield_kept yieldGrant_compiles.1 yieldGrant_compiles.2 (by decide)
    yieldFace_serves transferLib_reads Run.nil hadd hrun hsources⟩

/-- A single withdrawal takes everything to a stranger. -/
theorem withdraw_escapes :
    spendFromYieldGrant yieldParams = .ok yieldGrant
      ∧ buildBufiGrant id yieldGrant = .ok yieldUpdates
      ∧ Serves yieldFace yieldParams ∧ ReadsTransfers transferLib
      ∧ ∃ s history w, Session.step agentEnv (State.initial agentEnv.set)
          (walletTx (.addSessionKey agent 0 yieldUpdates)) = some s
        ∧ Run (faceStep yieldFace) (World.start s yieldMarket 1000) history w
        ∧ ¬ (∀ x ∈ w.paid, x.2.to' ∈ yieldFace.recipients) ∧ ¬ PaidWithin 100 1000 w.paid := by
  refine ⟨yieldGrant_compiles.1, yieldGrant_compiles.2, yieldFace_serves, transferLib_reads, ?_⟩
  obtain ⟨s, history, w, hadd, hrun, hpaid, -⟩ := run_of_paidAfter paidAfter_stranger
  refine ⟨s, history, w, hadd, hrun, ?_, ?_⟩
  · rw [hpaid]
    decide
  · rw [hpaid]
    intro hwithin
    have hle := hwithin.2 (by decide) 1200 1200 (by decide)
    exact absurd hle (by decide)

end Bufi.Grant
