import Bufi.Session.Access

/-!
# Bundles

A bundle of the EntryPoint validates all its user operations in order and then
executes them in order; an execution that reverts undoes its own effects only.
The operations of one account are those of its owners, which manage the session
keys, and those of its agents, which are validated and executed by the plugin.

The limits of tokens are checked during execution, under the id the key has at
that moment, and membership is checked during validation.  An operation of the
owners in between can take the id away: `_updateLimitsPreExec` then works under
another id, or under zero, and does not notice.  `agentOps_metered` says that
nothing else goes wrong: as long as a key has the id it was validated with when
it is used, the key is registered and everything it spends is charged.
-/

namespace Bufi.Session

open Bufi.Evm

variable {W S : Type} [DecidableEq W] {E : Env W S} {timestamp : Uint256} {account : Address}
  {s s' : State W S}

/-! ### Metering -/

/-- What the calls spend of a token, in order. -/
def amountsTo (token : Address) (calls : List Call) : List Uint256 :=
  (calls.filter (fun call => call.target = token)).map (fun call => getTokenSpendAmount call.data)

theorem amountsTo_cons_self (call : Call) (calls : List Call) :
    amountsTo call.target (call :: calls) =
      getTokenSpendAmount call.data :: amountsTo call.target calls := by
  simp [amountsTo]

theorem amountsTo_cons_of_ne {token : Address} {call : Call} (h : call.target ≠ token)
    (calls : List Call) : amountsTo token (call :: calls) = amountsTo token calls := by
  simp [amountsTo, h]

theorem meterToken_self {key : Address} {id : Bytes32} {call : Call}
    (h : meterToken E timestamp account key id s call = .ok s')
    (hlimit : (s.contractDataOf E.keccak account id call.target).isERC20WithSpendLimit = true) :
    Charge timestamp (s.contractDataOf E.keccak account id call.target).budget
        (getTokenSpendAmount call.data)
        (s'.contractDataOf E.keccak account id call.target).budget ∧
      (s'.contractDataOf E.keccak account id call.target).isERC20WithSpendLimit = true := by
  rw [meterToken, if_pos hlimit] at h
  simp only [bind_eq_ok, orRevert_eq_ok, require_eq_ok, exists_const, pure_eq_ok] at h
  obtain ⟨⟨ok, b⟩, hb, rfl, rfl⟩ := h
  rw [State.contractDataOf_setContractData, if_pos ⟨rfl, rfl, rfl⟩]
  exact ⟨charge_of_runtimeUpdate hb, hlimit⟩

theorem meterToken_of_ne {key token : Address} {id : Bytes32} {call : Call}
    (h : meterToken E timestamp account key id s call = .ok s') (hne : call.target ≠ token) :
    s'.contractDataOf E.keccak account id token = s.contractDataOf E.keccak account id token := by
  simp only [meterToken] at h
  split at h
  · simp only [bind_eq_ok, orRevert_eq_ok, require_eq_ok, exists_const, pure_eq_ok] at h
    obtain ⟨-, -, -, rfl⟩ := h
    rw [State.contractDataOf_setContractData, if_neg (fun hc => hne hc.2.2.symm)]
  · obtain rfl := pure_eq_ok.mp h
    rfl

/-- The loop over the calls charges every token that has a limit. -/
theorem charged_of_meterCalls {key token : Address} {id : Bytes32} {calls : List Call} {n m : ℕ}
    (h : calls.foldlM (meterCall E timestamp account key id) (n, s) = .ok (m, s'))
    (hlimit : (s.contractDataOf E.keccak account id token).isERC20WithSpendLimit = true) :
    Charged timestamp (s.contractDataOf E.keccak account id token).budget (amountsTo token calls)
      (s'.contractDataOf E.keccak account id token).budget := by
  induction calls generalizing n s with
  | nil =>
    rw [foldlM_nil_eq_ok, Prod.mk.injEq] at h
    rw [h.2]
    exact .nil _
  | cons call calls ih =>
    rw [foldlM_cons_eq_ok] at h
    obtain ⟨⟨k, t⟩, hcall, h⟩ := h
    simp only [meterCall, bind_eq_ok, orRevert_eq_ok, pure_eq_ok, Prod.mk.injEq] at hcall
    obtain ⟨-, -, u, hu, -, rfl⟩ := hcall
    by_cases htarget : call.target = token
    · subst htarget
      obtain ⟨hcharge, hlimit'⟩ := meterToken_self hu hlimit
      rw [amountsTo_cons_self]
      exact .cons hcharge (ih h hlimit')
    · have hsame := meterToken_of_ne hu htarget
      rw [amountsTo_cons_of_ne htarget, ← hsame]
      exact ih h (by rw [hsame]; exact hlimit)

/-- **What an execution spends is charged under the id it runs under.** -/
theorem charged_of_updateLimitsPreExec {key token : Address} {calls : List Call}
    (h : updateLimitsPreExec E timestamp account s calls key = .ok s')
    (hlimit : (s.contractDataOf E.keccak account (s.sessionKeyIdOf E.keccak account key)
      token).isERC20WithSpendLimit = true) :
    Charged timestamp
      (s.contractDataOf E.keccak account (s.sessionKeyIdOf E.keccak account key) token).budget
      (amountsTo token calls)
      (s'.contractDataOf E.keccak account (s.sessionKeyIdOf E.keccak account key)
        token).budget := by
  rw [updateLimitsPreExec_eq_ok] at h
  obtain ⟨n, t, d, hcalls, -, rfl⟩ := h
  have hcharged := charged_of_meterCalls hcalls hlimit
  exact hcharged

/-! ### User operations -/

/-- An operation of the owners of an account. -/
inductive OwnerOp
  | addSessionKey (sessionKey : Address) (tag : Bytes32) (permissionUpdates : List Bytes)
  | removeSessionKey (sessionKey : Address) (predecessor : Bytes32)
  | rotateSessionKey (oldSessionKey : Address) (predecessor : Bytes32) (newSessionKey : Address)
  | updateKeyPermissions (sessionKey : Address) (updates : List Bytes)

def OwnerOp.action : OwnerOp → Action
  | addSessionKey sessionKey tag permissionUpdates =>
    .addSessionKey sessionKey tag permissionUpdates
  | removeSessionKey sessionKey predecessor => .removeSessionKey sessionKey predecessor
  | rotateSessionKey oldSessionKey predecessor newSessionKey =>
    .rotateSessionKey oldSessionKey predecessor newSessionKey
  | updateKeyPermissions sessionKey updates => .updateKeyPermissions sessionKey updates

/-- An operation in a bundle; for an agent's, `callsReturn` is whether its calls
return when it is executed. -/
inductive UserOp
  | owner (op : OwnerOp)
  | agent (userOp : PackedUserOperation) (userOpHash : Bytes32) (callsReturn : Bool)

structure Bundle where
  timestamp : Uint256
  ops : List UserOp

section

variable (E timestamp account)

/-- Validation by the plugin; the owners' operations are validated elsewhere. -/
def validateOp (s : State W S) : UserOp → Option (State W S)
  | .owner _ => some s
  | .agent userOp userOpHash _ =>
    (userOpValidationFunction E account s 0 userOp userOpHash).toOption.bind (fun r =>
      if r.1.setWidth 160 = (0 : BitVec 160) then some r.2 else none)

/-- Execution; what reverts has no effect. -/
def executeOp (s : State W S) : UserOp → State W S
  | .owner op => (step E s ⟨account, timestamp, op.action⟩).getD s
  | .agent userOp _ callsReturn =>
    ((decodeExecute userOp.callData).bind (fun args =>
      step E s ⟨account, timestamp, .executeWithSessionKey args.1 args.2 callsReturn⟩)).getD s

def validateAll (s : State W S) (ops : List UserOp) : Option (State W S) :=
  ops.foldlM (validateOp E account) s

def executeAll (s : State W S) (ops : List UserOp) : State W S :=
  ops.foldl (executeOp E timestamp account) s

/-- A bundle with an operation that does not validate is not run. -/
def runBundle (s : State W S) (b : Bundle) : Option (State W S) :=
  (validateAll E account s b.ops).map (fun v => executeAll E b.timestamp account v b.ops)

/-- The turn of an agent's operation in a bundle that starts in `s`: `v` is the
state it is validated in, `e` the one it is executed in. -/
inductive AgentTurn (s : State W S) (b : Bundle) :
    List Call → Address → State W S → State W S → Prop
  | intro {before after : List UserOp} {userOp : PackedUserOperation} {userOpHash : Bytes32}
      {callsReturn : Bool} {calls : List Call} {key : Address} {v w : State W S} :
      b.ops = before ++ .agent userOp userOpHash callsReturn :: after →
      decodeExecute userOp.callData = some (calls, key) →
      validateAll E account s before = some v → validateAll E account s b.ops = some w →
      AgentTurn s b calls key v (executeAll E b.timestamp account w before)

/-- Every key is used under the id it was validated with. -/
def KeyIdsKept (s : State W S) (b : Bundle) : Prop :=
  ∀ calls key v e, AgentTurn E account s b calls key v e →
    e.sessionKeyIdOf E.keccak account key = v.sessionKeyIdOf E.keccak account key

/-- When an agent's operation gets to its calls, its key is registered, and of
every token that has a limit under the id the operation was validated with,
what the calls spend has been charged. -/
def AgentsMetered (s : State W S) (b : Bundle) : Prop :=
  ∀ calls key v e e', AgentTurn E account s b calls key v e →
    updateLimitsPreExec E b.timestamp account e calls key = .ok e' →
    e.sessionKeyIdOf E.keccak account key ≠ 0 ∧
      E.set.contains (e.sessionKeys account) key = true ∧
      ∀ token, (e.contractDataOf E.keccak account (v.sessionKeyIdOf E.keccak account key)
          token).isERC20WithSpendLimit = true →
        Charged b.timestamp
          (e.contractDataOf E.keccak account (v.sessionKeyIdOf E.keccak account key) token).budget
          (amountsTo token calls)
          (e'.contractDataOf E.keccak account (v.sessionKeyIdOf E.keccak account key) token).budget

end

/-! ### The two phases -/

/-- An operation that validates keeps the invariant and all key ids; an agent's
is of a registered key. -/
theorem validateOp_eq_some {op : UserOp} (h : validateOp E account s op = some s')
    (hr : Registry E account s) :
    Registry E account s' ∧ s'.keyIds = s.keyIds ∧
      ∀ userOp userOpHash callsReturn, op = .agent userOp userOpHash callsReturn →
        ∀ calls key, decodeExecute userOp.callData = some (calls, key) →
          E.set.contains (s.sessionKeys account) key = true := by
  cases op with
  | owner op =>
    obtain rfl := Option.some.inj h
    exact ⟨hr, rfl, fun _ _ _ hop => UserOp.noConfusion hop⟩
  | agent userOp userOpHash callsReturn =>
    rw [validateOp, Option.bind_eq_some_iff] at h
    obtain ⟨r, hvalid, h⟩ := h
    rw [Option.ite_none_right_eq_some, Option.some.injEq] at h
    obtain ⟨-, rfl⟩ := h
    obtain ⟨calls, key, hdecode, hmem, hwrite, -⟩ :=
      userOpValidationFunction_eq_ok (v := r.1) (toOption_eq_some.mp hvalid)
    refine ⟨?_, hwrite.keyIds, ?_⟩
    · exact hr.of_keyWrite hwrite (fun hz => absurd hz ((hr.registered key).mp hmem))
    · intro userOp' hash' returns' hop calls' key' hdecode'
      obtain ⟨rfl, -, -⟩ := UserOp.agent.inj hop
      rw [hdecode, Option.some.injEq, Prod.mk.injEq] at hdecode'
      rw [← hdecode'.2]
      exact hmem

theorem validateAll_keeps {ops : List UserOp} (h : validateAll E account s ops = some s')
    (hr : Registry E account s) : Registry E account s' ∧ s'.keyIds = s.keyIds := by
  induction ops generalizing s with
  | nil =>
    obtain rfl := Option.some.inj h
    exact ⟨hr, rfl⟩
  | cons op ops ih =>
    rw [validateAll, List.foldlM_cons, Option.bind_eq_bind, Option.bind_eq_some_iff] at h
    obtain ⟨t, ht, h⟩ := h
    obtain ⟨hrt, hids, -⟩ := validateOp_eq_some ht hr
    obtain ⟨hrs, hids'⟩ := ih h hrt
    exact ⟨hrs, hids'.trans hids⟩

theorem Registry.getD_step (hr : Registry E account s) (tx : Tx) :
    Registry E account ((step E s tx).getD s) := by
  cases h : step E s tx with
  | none => exact hr
  | some t => exact hr.exec (toOption_eq_some.mp h)

theorem executeOp_keeps (hr : Registry E account s) (op : UserOp) :
    Registry E account (executeOp E timestamp account s op) := by
  cases op with
  | owner op => exact hr.getD_step _
  | agent userOp userOpHash callsReturn =>
    rw [executeOp]
    cases decodeExecute userOp.callData with
    | none => exact hr
    | some args => exact hr.getD_step _

theorem executeAll_keeps (hr : Registry E account s) (ops : List UserOp) :
    Registry E account (executeAll E timestamp account s ops) := by
  induction ops generalizing s with
  | nil => exact hr
  | cons op ops ih => exact ih (executeOp_keeps hr op)

theorem runBundle_keeps {b : Bundle} (hr : Registry E account s)
    (h : runBundle E account s b = some s') : Registry E account s' := by
  rw [runBundle, Option.map_eq_some_iff] at h
  obtain ⟨v, hv, rfl⟩ := h
  exact executeAll_keeps (validateAll_keeps hv hr).1 b.ops

/-- The key of an agent's operation is registered when it is validated. -/
theorem AgentTurn.registered {b : Bundle} {calls : List Call} {key : Address} {v e : State W S}
    (hturn : AgentTurn E account s b calls key v e) (hr : Registry E account s) :
    v.sessionKeyIdOf E.keccak account key ≠ 0 ∧ Registry E account e := by
  obtain ⟨hops, hdecode, hv, hw⟩ := hturn
  have hrv := (validateAll_keeps hv hr).1
  refine ⟨?_, executeAll_keeps (validateAll_keeps hw hr).1 _⟩
  rw [validateAll, hops, List.foldlM_append, Option.bind_eq_bind, Option.bind_eq_some_iff] at hw
  obtain ⟨v', hv', hrest⟩ := hw
  obtain rfl : v = v' := Option.some.inj (hv.symm.trans hv')
  rw [List.foldlM_cons, Option.bind_eq_bind, Option.bind_eq_some_iff] at hrest
  obtain ⟨t, ht, -⟩ := hrest
  have hmem := (validateOp_eq_some ht hrv).2.2 _ _ _ rfl _ _ hdecode
  exact (hrv.registered key).mp hmem

theorem agentsMetered_of_kept {b : Bundle} (hr : Registry E account s)
    (hkept : KeyIdsKept E account s b) : AgentsMetered E account s b := by
  intro calls key v e e' hturn hpre
  obtain ⟨hne, hre⟩ := hturn.registered hr
  have hid := hkept calls key v e hturn
  rw [← hid] at hne ⊢
  exact ⟨hne, (hre.registered key).mpr hne, fun token hlimit =>
    charged_of_updateLimitsPreExec hpre hlimit⟩

/-- **The agents' operations of every sequence of bundles are metered**, if every
key is used under the id it was validated with. -/
theorem agentOps_metered {s₀ : State W S} {h₀ : List (Evm.Call (State W S) Tx)}
    (hrun₀ : Run (step E) (State.initial E.set) h₀ s₀)
    {h : List (Evm.Call (State W S) Bundle)} (hrun : Run (runBundle E account) s₀ h s)
    (hkept : ∀ c ∈ h, KeyIdsKept E account c.pre c.act) :
    ∀ c ∈ h, AgentsMetered E account c.pre c.act := by
  intro c hc
  obtain ⟨i, hi⟩ := List.mem_iff_getElem?.mp hc
  have hr : Registry E account c.pre :=
    hrun.invariant_pre hi (registry_of_run hrun₀ account) (fun _ _ _ => runBundle_keeps)
  exact agentsMetered_of_kept hr (hkept c hc)

/-! ### Bundles that keep the key ids -/

/-- The owners remove the key or hand its id on. -/
def UserOp.Moves (key : Address) : UserOp → Prop
  | .owner (.removeSessionKey sessionKey _) => sessionKey = key
  | .owner (.rotateSessionKey oldSessionKey _ _) => oldSessionKey = key
  | _ => False

namespace HasId

variable {key : Address} {id : Bytes32}

theorem owner (h : HasId E account key id s) {op : OwnerOp} (hop : ¬ (UserOp.owner op).Moves key)
    (hexec : exec E s ⟨account, timestamp, op.action⟩ = .ok s') : HasId E account key id s' := by
  cases op with
  | addSessionKey newKey tag updates =>
    change addSessionKey E timestamp account s newKey tag updates = .ok s' at hexec
    exact h.of_keyAdded (addSessionKey_eq_ok hexec)
  | removeSessionKey oldKey predecessor =>
    exact h.of_keyRemoved (fun he => hop he.symm) (removeSessionKey_eq_ok hexec)
  | rotateSessionKey oldKey predecessor newKey =>
    exact h.of_keyRotated (fun he => hop he.symm) (rotateSessionKey_eq_ok hexec)
  | updateKeyPermissions other updates =>
    exact h.of_keyWrite (updateKeyPermissions_eq_ok hexec).2.1

theorem executeOp (h : HasId E account key id s) {op : UserOp} (hop : ¬ op.Moves key) :
    HasId E account key id (executeOp E timestamp account s op) := by
  cases op with
  | owner op =>
    rw [Session.executeOp]
    cases hstep : step E s ⟨account, timestamp, op.action⟩ with
    | none => exact h
    | some t => exact h.owner hop (toOption_eq_some.mp hstep)
  | agent userOp userOpHash callsReturn =>
    rw [Session.executeOp]
    cases decodeExecute userOp.callData with
    | none => exact h
    | some args =>
      rw [Option.bind_some]
      cases hstep : step E s
          ⟨account, timestamp, .executeWithSessionKey args.1 args.2 callsReturn⟩ with
      | none => exact h
      | some t =>
        have hexec := executeWithSessionKey_eq_ok.mp (toOption_eq_some.mp hstep)
        exact h.of_keyWrite (updateLimitsPreExec_keyWrite hexec.1)

theorem executeAll (h : HasId E account key id s) {ops : List UserOp}
    (hops : ∀ op ∈ ops, ¬ op.Moves key) :
    HasId E account key id (executeAll E timestamp account s ops) := by
  induction ops generalizing s with
  | nil => exact h
  | cons op ops ih =>
    refine ih (h.executeOp (hops op (List.mem_cons_self ..))) ?_
    intro op' hop'
    exact hops op' (List.mem_cons_of_mem _ hop')

end HasId

/-- The ids are kept where no key is removed or rotated before an operation of
its agent. -/
theorem keyIdsKept_of_unmoved {b : Bundle} (hr : Registry E account s)
    (hops : ∀ before after userOp userOpHash callsReturn calls key,
      b.ops = before ++ .agent userOp userOpHash callsReturn :: after →
      decodeExecute userOp.callData = some (calls, key) → ∀ op ∈ before, ¬ op.Moves key) :
    KeyIdsKept E account s b := by
  intro calls key v e hturn
  obtain ⟨hne, -⟩ := hturn.registered hr
  obtain ⟨hsplit, hdecode, hv, hw⟩ := hturn
  obtain ⟨hrw, hids⟩ := validateAll_keeps hw hr
  have hsame : ∀ t : State W S, t.keyIds = s.keyIds →
      t.sessionKeyIdOf E.keccak account key = s.sessionKeyIdOf E.keccak account key :=
    fun t ht => congrFun ht _
  have hvw := (hsame v (validateAll_keeps hv hr).2).trans (hsame _ hids).symm
  rw [hvw] at hne ⊢
  have hstart : HasId E account key _ _ := ⟨(hrw.registered key).mpr hne, rfl⟩
  exact (hstart.executeAll (hops _ _ _ _ _ _ _ hsplit hdecode)).keyId

/-! ### Two bundles of the agent -/

/-- The calldata of `executeWithSessionKey` for one call of 68 bytes to the token. -/
def executeCallData (data : Bytes) : Bytes :=
  encodeCall 0x31d99c2c [0x40, agent.toNat, 1, 0x20, token.toNat, 0, 0x60, 68]
    ++ data ++ List.replicate 28 0

/-- The agent sends an amount of the token to the next agent. -/
def transferCall (amount : ℕ) : Call :=
  ⟨token, 0, encodeCall selTransfer [nextAgent.toNat, amount]⟩

def transferUserOp (amount : ℕ) : PackedUserOperation where
  nonce := agent.setWidth 256 <<< 64
  callData := executeCallData (transferCall amount).data
  accountGasLimits := 0
  preVerificationGas := 0
  gasFees := 0
  paymasterAndData := []
  signature := List.replicate 65 1

def transferOp (amount : ℕ) : UserOp := .agent (transferUserOp amount) 0 true

theorem decodeExecute_transfer :
    decodeExecute (transferUserOp 60).callData = some ([transferCall 60], agent) ∧
      decodeExecute (transferUserOp 30).callData = some ([transferCall 30], agent) ∧
      decodeExecute (transferUserOp 1000).callData = some ([transferCall 1000], agent) := by
  decide +kernel

/-- The owners add another key, and the agent sends 60 of its 100. -/
def joinBundle : Bundle := ⟨1000, [.owner (.addSessionKey nextAgent 0 []), transferOp 60]⟩

/-- The owners remove that key, and the agent sends another 30. -/
def leaveBundle : Bundle :=
  ⟨2000, [.owner (.removeSessionKey nextAgent LinkedSet.sentinel), transferOp 30]⟩

theorem bundles_run :
    ((step agentEnv (State.initial agentEnv.set)
      (walletTx (.addSessionKey agent 0 tokenGrant))).bind
      (fun s => (runBundle agentEnv wallet s joinBundle).bind
        (fun t => (runBundle agentEnv wallet t leaveBundle).map
          (fun u => (t.sessionKeyIdOf agentEnv.keccak wallet nextAgent,
            u.sessionKeyIdOf agentEnv.keccak wallet nextAgent,
            (u.contractDataOf agentEnv.keccak wallet 1 token).erc20SpendLimit.limitUsed)))))
      = some (2, 0, 90) := by
  decide +kernel

/-- The agent keeps its id if the operation of the owners is about another key. -/
theorem keyIdsKept_transfer {s : State Term (List Address)} (hr : Registry agentEnv wallet s)
    {timestamp : Uint256} {op : OwnerOp} {amount : ℕ}
    (hdecode : decodeExecute (transferUserOp amount).callData = some ([transferCall amount], agent))
    (hop : ¬ (UserOp.owner op).Moves agent) :
    KeyIdsKept agentEnv wallet s ⟨timestamp, [.owner op, transferOp amount]⟩ := by
  refine keyIdsKept_of_unmoved hr ?_
  intro before after userOp userOpHash callsReturn calls key hsplit hdecode' op' hmem
  cases before with
  | nil => cases hmem
  | cons first rest =>
    obtain ⟨rfl, htail⟩ := List.cons.inj hsplit
    cases rest with
    | nil =>
      obtain rfl := List.mem_singleton.mp hmem
      obtain ⟨hagent, -⟩ := List.cons.inj htail
      obtain ⟨rfl, -, -⟩ := UserOp.agent.inj hagent
      rw [hdecode, Option.some.injEq, Prod.mk.injEq] at hdecode'
      rw [← hdecode'.2]
      exact hop
    | cons second others =>
      have hlen := congrArg List.length htail
      simp at hlen

/-- Two bundles in which the owners act before the agent. -/
theorem agentOps_metered_bundles :
    ∃ (h : List (Evm.Call (State Term (List Address)) Bundle)) (s : State Term (List Address)),
      h.map Evm.Call.act = [joinBundle, leaveBundle] ∧
      (s.contractDataOf agentEnv.keccak wallet 1 token).erc20SpendLimit.limitUsed = 90 ∧
      ∀ c ∈ h, AgentsMetered agentEnv wallet c.pre c.act := by
  obtain ⟨s₀, hs₀, hs⟩ := Option.bind_eq_some_iff.mp bundles_run
  obtain ⟨t, ht, hs⟩ := Option.bind_eq_some_iff.mp hs
  obtain ⟨u, hu, hused⟩ := Option.map_eq_some_iff.mp hs
  rw [Prod.mk.injEq, Prod.mk.injEq] at hused
  have hrun₀ := Run.nil.snoc hs₀
  have hr := registry_of_run hrun₀ wallet
  refine ⟨_, u, rfl, hused.2.2, agentOps_metered hrun₀ ((Run.nil.snoc ht).snoc hu) ?_⟩
  intro c hc
  rcases List.mem_pair.mp hc with rfl | rfl
  · exact keyIdsKept_transfer hr decodeExecute_transfer.1 (fun h => h)
  · exact keyIdsKept_transfer (runBundle_keeps hr ht) decodeExecute_transfer.2.1
      (show ¬ nextAgent = agent by decide)

/-- The owners remove the agent, and the agent sends ten times its limit. -/
def removalBundle : Bundle :=
  ⟨1000, [.owner (.removeSessionKey agent LinkedSet.sentinel), transferOp 1000]⟩

/-- The id the transfer runs under, and what it leaves of the budget. -/
def removalOutcome (s : State Term (List Address)) : Option (Bytes32 × Uint256) :=
  (validateAll agentEnv wallet s removalBundle.ops).bind (fun w =>
    let e := executeAll agentEnv removalBundle.timestamp wallet w (removalBundle.ops.take 1)
    (updateLimitsPreExec agentEnv removalBundle.timestamp wallet e [transferCall 1000]
      agent).toOption.map (fun e' => (e.sessionKeyIdOf agentEnv.keccak wallet agent,
        (e'.contractDataOf agentEnv.keccak wallet 1 token).erc20SpendLimit.limitUsed)))

theorem removalBundle_runs :
    (step agentEnv (State.initial agentEnv.set)
      (walletTx (.addSessionKey agent 0 tokenGrant))).bind removalOutcome = some (0, 0) := by
  decide +kernel

/-- A key that was removed earlier in the bundle spends unmetered. -/
theorem removedKey_unmetered :
    ¬ ∀ h₀ s₀, Run (step agentEnv) (State.initial agentEnv.set) h₀ s₀ →
      ∀ h s, Run (runBundle agentEnv wallet) s₀ h s →
        ∀ c ∈ h, AgentsMetered agentEnv wallet c.pre c.act := by
  intro hall
  obtain ⟨s₀, hs₀, hout⟩ := Option.bind_eq_some_iff.mp removalBundle_runs
  rw [removalOutcome, Option.bind_eq_some_iff] at hout
  obtain ⟨w, hw, hout⟩ := hout
  rw [Option.map_eq_some_iff] at hout
  obtain ⟨e', he', hout⟩ := hout
  rw [Prod.mk.injEq] at hout
  have hbundle : runBundle agentEnv wallet s₀ removalBundle =
      some (executeAll agentEnv removalBundle.timestamp wallet w removalBundle.ops) := by
    rw [runBundle, hw]
    rfl
  have hmetered := hall _ s₀ (Run.nil.snoc hs₀) _ _ (Run.nil.snoc hbundle) _
    (List.mem_singleton_self _)
  have hturn : AgentTurn agentEnv wallet s₀ removalBundle [transferCall 1000] agent s₀
      (executeAll agentEnv removalBundle.timestamp wallet w (removalBundle.ops.take 1)) :=
    .intro rfl decodeExecute_transfer.2.2 rfl hw
  exact (hmetered _ _ _ _ _ hturn (toOption_eq_some.mp he')).1 hout.1

end Bufi.Session
