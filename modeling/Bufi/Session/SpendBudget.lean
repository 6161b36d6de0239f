import Bufi.Session.GasBudget

/-!
# The budgets of tokens and of the native token

An execution counts what its calls spend before it makes the first of them: a
call to a token with a limit is counted when the loop gets to it, with the
counter as the calls before it have left it, and the native tokens are counted
once, as the sum of the values.  If a limit is exceeded the whole batch reverts.

`SpendKept` is the invariant of one limit: the counter and the ledger, and every
reset of the window is at or before `lastUsed`.  The same invariant serves a
token, whose ledger has an entry for every call, and the native token, whose
ledger has one for every batch.
-/

namespace Bufi.Session

open Bufi.Evm

/-! ### Amounts -/

/-- The arguments of `transfer(address,uint256)` and `approve(address,uint256)`, as
a token decodes them; a token reverts on anything else. -/
def tokenArguments (data : Bytes) : Option (Address × Uint256) := do
  let a := data.drop 4
  return (← Abi.address a 0, ← Abi.word a 32)

/-- What a call that a token completes has transferred or approved. -/
def spentAmount (data : Bytes) : ℕ :=
  if isAllowedERC20Function (selectorOf data) then
    (tokenArguments data).elim 0 (fun args => args.2.toNat)
  else 0

/-- No call spends more than is counted. -/
theorem spentAmount_le (data : Bytes) : spentAmount data ≤ (getTokenSpendAmount data).toNat := by
  rw [spentAmount, getTokenSpendAmount]
  split
  · cases hargs : tokenArguments data with
    | none => exact Nat.zero_le _
    | some args =>
      simp only [tokenArguments, Option.bind_eq_bind, Option.bind_eq_some_iff, Option.pure_def,
        Option.some.injEq] at hargs
      obtain ⟨a, -, w, hw, rfl⟩ := hargs
      rw [Abi.word, Option.ite_none_right_eq_some, Option.some.injEq] at hw
      obtain ⟨hlen, rfl⟩ := hw
      rw [List.length_drop] at hlen
      rw [if_neg (by omega)]
      refine Nat.le_of_eq ?_
      rw [Option.elim_some, wordAt, wordAt, List.drop_drop]
  · exact Nat.zero_le _

/-! ### One limit -/

/-- The counter and the ledger of a limit; a reset is at or before `lastUsed`. -/
structure SpendKept (limit : Uint256) (interval : Uint48) (b : Budget) (l : List Entry) :
    Prop where
  limitAmount : b.2.limitAmount = limit
  refreshInterval : b.1.refreshInterval = interval
  counted : Counted limit.toNat interval.toNat b.2.limitUsed.toNat l
  never : interval = 0 → ∀ e ∈ l, e.restart = false
  restarts : ∀ e ∈ l, e.restart = true → e.time ≤ b.1.lastUsed.toNat

namespace SpendKept

variable {limit : Uint256} {interval : Uint48} {b b' : Budget} {l : List Entry}

theorem nil (b : Budget) : SpendKept b.2.limitAmount b.1.refreshInterval b [] where
  limitAmount := rfl
  refreshInterval := rfl
  counted := .nil _ _ _
  never _ e he := by simp at he
  restarts e he := by simp at he

/-- A use that is counted with at least what it spends. -/
theorem charge (h : SpendKept limit interval b l) {timestamp amount : Uint256}
    (hcharge : Charge timestamp b amount b') (h48 : timestamp.toNat < 2 ^ 48)
    (htime : ∀ e ∈ l, e.time ≤ timestamp.toNat) {spent : ℕ} (hspent : spent ≤ amount.toNat) :
    SpendKept limit interval b'
      (l ++ [⟨timestamp.toNat, spent, !decide (InWindow timestamp b.1)⟩]) := by
  have hwithin := hcharge.within
  rw [h.limitAmount] at hwithin
  by_cases hwin : InWindow timestamp b.1
  · have hused := hcharge.limitUsed
    rw [carriedUsage, if_pos hwin] at hused
    have hlast := hcharge.lastUsed
    rw [if_pos hwin] at hlast
    have hadd := h.counted.add htime (show _ + spent ≤ limit.toNat by omega)
    rw [decide_eq_true hwin, Bool.not_true]
    refine ⟨hcharge.limitAmount.trans h.limitAmount,
      hcharge.refreshInterval.trans h.refreshInterval, hadd.mono (by omega), ?_, ?_⟩
    · intro hzero e he
      rcases List.mem_append.mp he with he | he
      · exact h.never hzero e he
      · rw [List.mem_singleton.mp he]
    · intro e he hr
      rw [hlast]
      rcases List.mem_append.mp he with he | he
      · exact h.restarts e he hr
      · rw [List.mem_singleton.mp he] at hr
        exact absurd hr Bool.false_ne_true
  · have hused := hcharge.limitUsed
    rw [carriedUsage, if_neg hwin, Nat.zero_add] at hused
    have hlast := hcharge.lastUsed
    rw [if_neg hwin] at hlast
    obtain ⟨hinterval, hover⟩ := not_or.mp hwin
    rw [h.refreshInterval] at hinterval hover
    have hpace : ∀ e ∈ l, e.restart = true → e.time + interval.toNat ≤ timestamp.toNat := by
      intro e he hr
      have hle := h.restarts e he hr
      omega
    have hrestart := h.counted.restart htime hpace (show spent ≤ limit.toNat by omega)
    rw [decide_eq_false hwin, Bool.not_false]
    refine ⟨hcharge.limitAmount.trans h.limitAmount,
      hcharge.refreshInterval.trans h.refreshInterval, hrestart.mono (by omega),
      fun hzero => absurd hzero hinterval, ?_⟩
    intro e he _
    rw [hlast, toNat_toUint48 h48]
    rcases List.mem_append.mp he with he | he
    · exact htime e he
    · rw [List.mem_singleton.mp he]

theorem withinBudget (h : SpendKept limit interval b l) :
    WithinBudget limit.toNat interval.toNat l :=
  h.counted.withinBudget (fun hzero => h.never (BitVec.eq_of_toNat_eq hzero))

end SpendKept

/-! ### The ledgers -/

/-- The calls of a batch to one token, with the budget as each of them finds it. -/
def spendEntries (timestamp : Uint256) : Budget → List Call → List Entry
  | _, [] => []
  | b, call :: rest =>
    ⟨timestamp.toNat, spentAmount call.data, !decide (InWindow timestamp b.1)⟩ ::
      spendEntries timestamp ((runtimeUpdateSpendLimitUsage timestamp
        (getTokenSpendAmount call.data) b).elim b Prod.snd) rest

def callsTo (token : Address) (calls : List Call) : List Call :=
  calls.filter (fun call => call.target = token)

variable {W S : Type}

section

variable (E : Env W S) (account key : Address) (id : Bytes32)

/-- What a batch of the key spends of a token. -/
def tokenEntries (token : Address) (c : Evm.Call (State W S) Tx) : List Entry :=
  match c.act.action with
  | .executeWithSessionKey calls _ _ =>
    if c.act.session = some (account, key) then
      spendEntries c.act.timestamp (c.pre.contractDataOf E.keccak account id token).budget
        (callsTo token calls)
    else []
  | _ => []

/-- What a batch of the key spends of the native token. -/
def nativeEntries (c : Evm.Call (State W S) Tx) : List Entry :=
  match c.act.action with
  | .executeWithSessionKey calls _ _ =>
    if c.act.session = some (account, key) then
      [⟨c.act.timestamp.toNat, nativeValue calls, !decide (InWindow c.act.timestamp
        (c.pre.sessionKeyDataOf E.keccak account id).nativeTokenSpendLimitTimeInfo)⟩]
    else []
  | _ => []

end

theorem spendEntries_time (timestamp : Uint256) (b : Budget) (calls : List Call) :
    ∀ e ∈ spendEntries timestamp b calls, e.time = timestamp.toNat := by
  induction calls generalizing b with
  | nil =>
    intro e he
    simp [spendEntries] at he
  | cons call calls ih =>
    intro e he
    rcases List.mem_cons.mp he with rfl | he
    · rfl
    · exact ih _ e he

variable {E : Env W S} {account key : Address} {id : Bytes32} {s s' : State W S}

theorem tokenEntries_time {token : Address} (c : Evm.Call (State W S) Tx) :
    ∀ e ∈ tokenEntries E account key id token c, e.time = c.act.timestamp.toNat := by
  intro e he
  simp only [tokenEntries] at he
  split at he
  · split at he
    · exact spendEntries_time _ _ _ e he
    · simp at he
  · simp at he

theorem nativeEntries_time (c : Evm.Call (State W S) Tx) :
    ∀ e ∈ nativeEntries E account key id c, e.time = c.act.timestamp.toNat := by
  intro e he
  simp only [nativeEntries] at he
  split at he
  · split at he
    · rw [List.mem_singleton.mp he]
    · simp at he
  · simp at he

theorem tokenEntries_of_session_ne {token : Address} {c : Evm.Call (State W S) Tx}
    (h : c.act.session ≠ some (account, key)) : tokenEntries E account key id token c = [] := by
  simp only [tokenEntries]
  split
  · rw [if_neg h]
  · rfl

theorem nativeEntries_of_session_ne {c : Evm.Call (State W S) Tx}
    (h : c.act.session ≠ some (account, key)) : nativeEntries E account key id c = [] := by
  simp only [nativeEntries]
  split
  · rw [if_neg h]
  · rfl

variable [DecidableEq W]

section

variable (E account key id)

/-- What the batches of the key that went through have spent of a token. -/
def tokenLedger (token : Address) (s : State W S) (txs : List Tx) : List Entry :=
  (attempts (entryPointStep E) s txs).flatMap (tokenEntries E account key id token)

/-- What they have spent of the native token. -/
def nativeLedger (s : State W S) (txs : List Tx) : List Entry :=
  (attempts (entryPointStep E) s txs).flatMap (nativeEntries E account key id)

end

/-! ### A batch and one token -/

/-- The limit as the counting of one call leaves it. -/
theorem meterToken_budget {timestamp : Uint256} {call : Call}
    (h : meterToken E timestamp account key id s call = .ok s')
    (hlimit : (s.contractDataOf E.keccak account id call.target).isERC20WithSpendLimit = true) :
    runtimeUpdateSpendLimitUsage timestamp (getTokenSpendAmount call.data)
        (s.contractDataOf E.keccak account id call.target).budget =
      some (true, (s'.contractDataOf E.keccak account id call.target).budget) := by
  rw [meterToken, if_pos hlimit] at h
  simp only [bind_eq_ok, orRevert_eq_ok, require_eq_ok, exists_const, pure_eq_ok] at h
  obtain ⟨⟨ok, b⟩, hb, rfl, rfl⟩ := h
  rw [State.contractDataOf_setContractData, if_pos ⟨rfl, rfl, rfl⟩]
  exact hb

/-- The loop over the calls keeps the invariant of every token with a limit. -/
theorem SpendKept.meterCalls {limit : Uint256} {interval : Uint48} {l : List Entry}
    {timestamp : Uint256} {token : Address} {calls : List Call} {n m : ℕ}
    (h : calls.foldlM (meterCall E timestamp account key id) (n, s) = .ok (m, s'))
    (hlimit : (s.contractDataOf E.keccak account id token).isERC20WithSpendLimit = true)
    (hkept : SpendKept limit interval (s.contractDataOf E.keccak account id token).budget l)
    (h48 : timestamp.toNat < 2 ^ 48) (htime : ∀ e ∈ l, e.time ≤ timestamp.toNat) :
    (s'.contractDataOf E.keccak account id token).isERC20WithSpendLimit = true ∧
      SpendKept limit interval (s'.contractDataOf E.keccak account id token).budget
        (l ++ spendEntries timestamp (s.contractDataOf E.keccak account id token).budget
          (callsTo token calls)) := by
  induction calls generalizing n s l with
  | nil =>
    rw [foldlM_nil_eq_ok, Prod.mk.injEq] at h
    rw [h.2, callsTo, List.filter_nil, spendEntries, List.append_nil]
    exact ⟨hlimit, hkept⟩
  | cons call calls ih =>
    rw [foldlM_cons_eq_ok] at h
    obtain ⟨⟨k, t⟩, hcall, h⟩ := h
    simp only [meterCall, bind_eq_ok, orRevert_eq_ok, pure_eq_ok, Prod.mk.injEq] at hcall
    obtain ⟨-, -, u, hu, -, rfl⟩ := hcall
    by_cases htarget : call.target = token
    · subst htarget
      have hbudget := meterToken_budget hu hlimit
      have hcharge := hkept.charge (charge_of_runtimeUpdate hbudget) h48 htime
        (spentAmount_le call.data)
      have hrest := ih h (meterToken_self hu hlimit).2 hcharge ?_
      · rw [callsTo, List.filter_cons_of_pos (by simp), spendEntries, hbudget]
        rw [List.append_assoc] at hrest
        exact hrest
      · intro e he
        rcases List.mem_append.mp he with he | he
        · exact htime e he
        · rw [List.mem_singleton.mp he]
    · have hsame := meterToken_of_ne hu htarget
      rw [callsTo, List.filter_cons_of_neg (by simpa using htarget), ← callsTo, ← hsame]
      exact ih h (by rw [hsame]; exact hlimit) (by rw [hsame]; exact hkept) htime

/-! ### The invariant along a run -/

/-- A token with a limit. -/
structure TokenKept (limit : Uint256) (interval : Uint48) (d : ContractData) (l : List Entry) :
    Prop where
  limited : d.isERC20WithSpendLimit = true
  kept : SpendKept limit interval d.budget l

/-- The native token, with its limit in force. -/
structure NativeKept (limit : Uint256) (interval : Uint48) (d : SessionKeyData)
    (l : List Entry) : Prop where
  limited : d.nativeTokenSpendLimitBypassed = false
  kept : SpendKept limit interval d.nativeBudget l

variable {limit : Uint256} {interval : Uint48} {l : List Entry} {tx : Tx}

theorem TokenKept.step {token : Address}
    (h : TokenKept limit interval (s.contractDataOf E.keccak account id token) l)
    (hid : HasId E account key id s) (hkey : KeyStep E account key id s tx s')
    (h48 : tx.timestamp.toNat < 2 ^ 48) (htime : ∀ e ∈ l, e.time ≤ tx.timestamp.toNat) :
    TokenKept limit interval (s'.contractDataOf E.keccak account id token)
      (l ++ tokenEntries E account key id token ⟨s, tx, s'⟩) := by
  have hcontract : ∀ f, s'.permissionsOf E.keccak account id =
      (s.permissionsOf E.keccak account id).mapKey f →
      s'.contractDataOf E.keccak account id token = s.contractDataOf E.keccak account id token :=
    fun f hperm => congrFun (congrArg Permissions.contracts hperm) token
  cases hkey with
  | same hsession hperm =>
    rw [tokenEntries_of_session_ne hsession, List.append_nil, hcontract (fun d => d) hperm]
    exact h
  | reset hsession hperm =>
    rw [tokenEntries_of_session_ne hsession, List.append_nil, hcontract _ hperm]
    exact h
  | validated haction hsession hgas hafter hperm =>
    simp only [tokenEntries, haction, List.append_nil]
    rw [hcontract _ hperm]
    exact h
  | executed haction hsession hpre =>
    rw [updateLimitsPreExec_eq_ok, hid.keyId] at hpre
    obtain ⟨n, t, d, hcalls, -, rfl⟩ := hpre
    simp only [tokenEntries, haction, if_pos hsession]
    obtain ⟨hlimited, hkept⟩ := h.kept.meterCalls hcalls h.limited h48 htime
    exact ⟨hlimited, hkept⟩

/-- The check of the gas limit leaves the native token limit alone. -/
theorem native_of_checkGas {lib : UserOperationLib} {userOp : PackedUserOperation}
    {d d' : SessionKeyData} {validAfter : Uint48}
    (h : checkGas lib userOp d = .ok (true, validAfter, d')) :
    d'.nativeTokenSpendLimitBypassed = d.nativeTokenSpendLimitBypassed ∧
      d'.nativeBudget = d.nativeBudget := by
  rw [checkGas] at h
  split at h
  · simp only [bind_eq_ok, orRevert_eq_ok] at h
    obtain ⟨cost, -, hcheck⟩ := h
    cases gasUse_of_check hcheck with
    | fits used _ _ hd =>
      rw [hd]
      exact ⟨rfl, rfl⟩
    | restarts _ _ _ _ hd =>
      rw [hd]
      exact ⟨rfl, rfl⟩
  · rw [pure_eq_ok, Prod.mk.injEq, Prod.mk.injEq] at h
    rw [h.2.2]
    exact ⟨rfl, rfl⟩

theorem native_of_finishGasReset (d : SessionKeyData) (timestamp : Uint256) :
    (d.finishGasReset timestamp).nativeTokenSpendLimitBypassed =
        d.nativeTokenSpendLimitBypassed ∧
      (d.finishGasReset timestamp).nativeBudget = d.nativeBudget := by
  rw [SessionKeyData.finishGasReset]
  split
  · exact ⟨rfl, rfl⟩
  · exact ⟨rfl, rfl⟩

/-- The values of a batch are charged to the native token limit. -/
theorem charge_of_meterNative {timestamp : Uint256} {n : ℕ} {d d' : SessionKeyData}
    (h : meterNative timestamp account key n d = .ok d')
    (hlimit : d.nativeTokenSpendLimitBypassed = false) :
    Charge timestamp d.nativeBudget (BitVec.ofNat 256 n) d'.nativeBudget ∧
      d'.nativeTokenSpendLimitBypassed = false := by
  rw [meterNative, if_neg (by rw [hlimit]; exact Bool.false_ne_true)] at h
  simp only [bind_eq_ok, orRevert_eq_ok, require_eq_ok, exists_const, pure_eq_ok] at h
  obtain ⟨⟨ok, b⟩, hb, rfl, rfl⟩ := h
  exact ⟨charge_of_runtimeUpdate hb, hlimit⟩

/-- What an execution does to the native token limit. -/
theorem charge_of_updateLimitsPreExec {timestamp : Uint256} {calls : List Call}
    (hid : HasId E account key id s)
    (h : updateLimitsPreExec E timestamp account s calls key = .ok s')
    (hlimit : (s.sessionKeyDataOf E.keccak account id).nativeTokenSpendLimitBypassed = false) :
    nativeValue calls < 2 ^ 256 ∧
      Charge timestamp (s.sessionKeyDataOf E.keccak account id).nativeBudget
        (BitVec.ofNat 256 (nativeValue calls))
        (s'.sessionKeyDataOf E.keccak account id).nativeBudget ∧
      (s'.sessionKeyDataOf E.keccak account id).nativeTokenSpendLimitBypassed = false := by
  obtain ⟨d, hlt, hnative, hdata⟩ := keyData_of_updateLimitsPreExec hid h
  obtain ⟨hcharge, hlimited⟩ := charge_of_meterNative hnative hlimit
  obtain ⟨hbypassed, hbudget⟩ := native_of_finishGasReset d timestamp
  rw [hdata, hbudget, hbypassed]
  exact ⟨hlt, hcharge, hlimited⟩

theorem NativeKept.step
    (h : NativeKept limit interval (s.sessionKeyDataOf E.keccak account id) l)
    (hid : HasId E account key id s) (hkey : KeyStep E account key id s tx s')
    (h48 : tx.timestamp.toNat < 2 ^ 48) (htime : ∀ e ∈ l, e.time ≤ tx.timestamp.toNat) :
    NativeKept limit interval (s'.sessionKeyDataOf E.keccak account id)
      (l ++ nativeEntries E account key id ⟨s, tx, s'⟩) := by
  cases hkey with
  | same hsession hperm =>
    have hdata : s'.sessionKeyDataOf E.keccak account id =
      s.sessionKeyDataOf E.keccak account id := congrArg Permissions.key hperm
    rw [nativeEntries_of_session_ne hsession, List.append_nil, hdata]
    exact h
  | reset hsession hperm =>
    have hdata : s'.sessionKeyDataOf E.keccak account id =
      (s.sessionKeyDataOf E.keccak account id).finishGasReset tx.timestamp :=
      congrArg Permissions.key hperm
    obtain ⟨hbypassed, hbudget⟩ :=
      native_of_finishGasReset (s.sessionKeyDataOf E.keccak account id) tx.timestamp
    rw [nativeEntries_of_session_ne hsession, List.append_nil, hdata]
    exact ⟨hbypassed.trans h.limited, by rw [hbudget]; exact h.kept⟩
  | @validated functionId userOp userOpHash validAfter d haction hsession hgas hafter hperm =>
    have hdata : s'.sessionKeyDataOf E.keccak account id = d := congrArg Permissions.key hperm
    obtain ⟨hbypassed, hbudget⟩ := native_of_checkGas hgas
    simp only [nativeEntries, haction, List.append_nil]
    rw [hdata]
    exact ⟨hbypassed.trans h.limited, by rw [hbudget]; exact h.kept⟩
  | @executed calls haction hsession hpre =>
    obtain ⟨hlt, hcharge, hlimited⟩ := charge_of_updateLimitsPreExec hid hpre h.limited
    simp only [nativeEntries, haction, if_pos hsession]
    refine ⟨hlimited, h.kept.charge hcharge h48 htime ?_⟩
    rw [BitVec.toNat_ofNat, Nat.mod_eq_of_lt hlt]

/-! ### Batches that exceed a limit -/

/-- After a use the window it fell into is in force. -/
theorem Charge.inWindow {timestamp amount : Uint256} {b b' : Budget}
    (h : Charge timestamp b amount b') (h48 : timestamp.toNat < 2 ^ 48) :
    InWindow timestamp b'.1 := by
  have hlast := h.lastUsed
  rw [InWindow, h.refreshInterval]
  by_cases hwin : InWindow timestamp b.1
  · rw [if_pos hwin] at hlast
    rw [hlast]
    exact hwin
  · rw [if_neg hwin] at hlast
    rw [hlast, toNat_toUint48 h48]
    have hpos : b.1.refreshInterval.toNat ≠ 0 :=
      fun hz => (not_or.mp hwin).1 (BitVec.eq_of_toNat_eq hz)
    omega

theorem Charged.total_le {timestamp : Uint256} {b b' : Budget} {amounts : List Uint256}
    (h : Charged timestamp b amounts b') (h48 : timestamp.toNat < 2 ^ 48) (hne : amounts ≠ []) :
    carriedUsage timestamp b + (amounts.map BitVec.toNat).sum ≤ b.2.limitAmount.toNat := by
  induction h with
  | nil => exact absurd rfl hne
  | @cons b b₁ b' amount rest hcharge hrest ih =>
    have hused := hcharge.limitUsed
    have hwithin := hcharge.within
    rw [List.map_cons, List.sum_cons]
    cases rest with
    | nil =>
      rw [List.map_nil, List.sum_nil]
      omega
    | cons next rest =>
      have hle := ih (List.cons_ne_nil _ _)
      rw [carriedUsage, if_pos (hcharge.inWindow h48), hcharge.limitAmount] at hle
      omega

/-- The calls spend more of the token than is left of its limit. -/
def ExceedsToken (timestamp : Uint256) (b : Budget) (token : Address) (calls : List Call) :
    Prop :=
  amountsTo token calls ≠ [] ∧
    b.2.limitAmount.toNat <
      carriedUsage timestamp b + ((amountsTo token calls).map BitVec.toNat).sum

/-- The calls send more native tokens than are left of the limit. -/
def ExceedsNative (timestamp : Uint256) (b : Budget) (calls : List Call) : Prop :=
  b.2.limitAmount.toNat < carriedUsage timestamp b + nativeValue calls

theorem updateLimits_of_batch {timestamp : Uint256} {calls : List Call} {callsReturn : Bool}
    (h : entryPointStep E s ⟨account, timestamp, .executeWithSessionKey calls key callsReturn⟩ =
      some s') : updateLimitsPreExec E timestamp account s calls key = .ok s' :=
  (executeWithSessionKey_eq_ok.mp (exec_of_entryPointStep h)).1

theorem batch_reverts_of_exceedsToken (hid : HasId E account key id s) {token : Address}
    (hlimit : (s.contractDataOf E.keccak account id token).isERC20WithSpendLimit = true)
    {timestamp : Uint256} (h48 : timestamp.toNat < 2 ^ 48) {calls : List Call}
    (hexceeds : ExceedsToken timestamp (s.contractDataOf E.keccak account id token).budget token
      calls) (callsReturn : Bool) :
    entryPointStep E s ⟨account, timestamp, .executeWithSessionKey calls key callsReturn⟩ =
      none := by
  by_contra hc
  obtain ⟨s', hs'⟩ := Option.ne_none_iff_exists'.mp hc
  rw [← hid.keyId] at hlimit
  have hcharged := charged_of_updateLimitsPreExec (updateLimits_of_batch hs') hlimit
  rw [hid.keyId] at hcharged
  have hle := hcharged.total_le h48 hexceeds.1
  exact absurd hexceeds.2 (Nat.not_lt.mpr hle)

theorem batch_reverts_of_exceedsNative (hid : HasId E account key id s)
    (hlimit : (s.sessionKeyDataOf E.keccak account id).nativeTokenSpendLimitBypassed = false)
    {timestamp : Uint256} {calls : List Call}
    (hexceeds : ExceedsNative timestamp (s.sessionKeyDataOf E.keccak account id).nativeBudget
      calls) (callsReturn : Bool) :
    entryPointStep E s ⟨account, timestamp, .executeWithSessionKey calls key callsReturn⟩ =
      none := by
  by_contra hc
  obtain ⟨s', hs'⟩ := Option.ne_none_iff_exists'.mp hc
  obtain ⟨hlt, hcharge, -⟩ :=
    charge_of_updateLimitsPreExec hid (updateLimits_of_batch hs') hlimit
  have hused := hcharge.limitUsed
  have hwithin := hcharge.within
  rw [BitVec.toNat_ofNat, Nat.mod_eq_of_lt hlt] at hused
  rw [ExceedsNative] at hexceeds
  omega

/-! ### The budgets of a key -/

section

variable (E account key id)

/-- What a limited token promises after a sequence of calls: the ledger is within
the budget, every batch that went through was counted without a wrap, and a
batch that exceeds what is left reverts. -/
structure TokenBudgetKept (token : Address) (s₀ : State W S) (txs : List Tx) : Prop where
  withinBudget : WithinBudget
    (s₀.contractDataOf E.keccak account id token).erc20SpendLimit.limitAmount.toNat
    (s₀.contractDataOf E.keccak account id token).erc20SpendLimitTimeInfo.refreshInterval.toNat
    (tokenLedger E account key id token s₀ txs)
  charged : ∀ c ∈ attempts (entryPointStep E) s₀ txs, ∀ calls callsReturn,
    c.act.action = .executeWithSessionKey calls key callsReturn → c.act.sender = account →
    Charged c.act.timestamp (c.pre.contractDataOf E.keccak account id token).budget
      (amountsTo token calls) (c.post.contractDataOf E.keccak account id token).budget
  reverts : ∀ timestamp calls callsReturn, timestamp.toNat < 2 ^ 48 →
    ExceedsToken timestamp ((afterAttempts (entryPointStep E) s₀ txs).contractDataOf E.keccak
      account id token).budget token calls →
    entryPointStep E (afterAttempts (entryPointStep E) s₀ txs)
      ⟨account, timestamp, .executeWithSessionKey calls key callsReturn⟩ = none

/-- The same for the native token. -/
structure NativeBudgetKept (s₀ : State W S) (txs : List Tx) : Prop where
  withinBudget : WithinBudget
    (s₀.sessionKeyDataOf E.keccak account id).nativeTokenSpendLimit.limitAmount.toNat
    (s₀.sessionKeyDataOf E.keccak account
      id).nativeTokenSpendLimitTimeInfo.refreshInterval.toNat
    (nativeLedger E account key id s₀ txs)
  charged : ∀ c ∈ attempts (entryPointStep E) s₀ txs, ∀ calls callsReturn,
    c.act.action = .executeWithSessionKey calls key callsReturn → c.act.sender = account →
    nativeValue calls < 2 ^ 256 ∧
      Charge c.act.timestamp (c.pre.sessionKeyDataOf E.keccak account id).nativeBudget
        (BitVec.ofNat 256 (nativeValue calls))
        (c.post.sessionKeyDataOf E.keccak account id).nativeBudget
  reverts : ∀ timestamp calls callsReturn, timestamp.toNat < 2 ^ 48 →
    ExceedsNative timestamp ((afterAttempts (entryPointStep E) s₀ txs).sessionKeyDataOf E.keccak
      account id).nativeBudget calls →
    entryPointStep E (afterAttempts (entryPointStep E) s₀ txs)
      ⟨account, timestamp, .executeWithSessionKey calls key callsReturn⟩ = none

end

variable {s₀ : State W S} {txs : List Tx}

theorem updateLimits_of_attempts {c : Evm.Call (State W S) Tx}
    (hc : c ∈ attempts (entryPointStep E) s₀ txs) {calls : List Call} {callsReturn : Bool}
    (haction : c.act.action = .executeWithSessionKey calls key callsReturn)
    (hsender : c.act.sender = account) :
    updateLimitsPreExec E c.act.timestamp account c.pre calls key = .ok c.post := by
  have hstep := Run.step_of_attempts hc
  obtain ⟨pre, ⟨sender, timestamp, action⟩, post⟩ := c
  simp only at haction hsender hstep ⊢
  rw [haction, hsender] at hstep
  exact updateLimits_of_batch hstep

theorem tokenBudgetKept (hr : Registry E account s₀) (hid : HasId E account key id s₀)
    {token : Address}
    (hlimit : (s₀.contractDataOf E.keccak account id token).isERC20WithSpendLimit = true)
    (hkeep : ∀ tx ∈ txs, tx.reconfigures account key = false)
    (horder : txs.Pairwise (fun a b => a.timestamp.toNat ≤ b.timestamp.toNat))
    (h48 : ∀ tx ∈ txs, tx.timestamp.toNat < 2 ^ 48) :
    TokenBudgetKept E account key id token s₀ txs := by
  obtain ⟨hidLast, hlast, hbefore⟩ := ledger_invariant (P := fun t l => TokenKept
    (s₀.contractDataOf E.keccak account id token).erc20SpendLimit.limitAmount
    (s₀.contractDataOf E.keccak account id token).erc20SpendLimitTimeInfo.refreshInterval
    (t.contractDataOf E.keccak account id token) l) tokenEntries_time
    (fun _ _ _ _ hidt hkey hok htime ht => ht.step hidt hkey hok htime) hr hid
    ⟨hlimit, .nil (s₀.contractDataOf E.keccak account id token).budget⟩ h48 hkeep horder
  refine ⟨hlast.kept.withinBudget, ?_, ?_⟩
  · intro c hc calls callsReturn haction hsender
    obtain ⟨hidc, l, hkept⟩ := hbefore c hc
    have hlimited := hkept.limited
    rw [← hidc.keyId] at hlimited
    have hcharged := charged_of_updateLimitsPreExec (updateLimits_of_attempts hc haction hsender)
      hlimited
    rwa [hidc.keyId] at hcharged
  · intro timestamp calls callsReturn hlt hexceeds
    exact batch_reverts_of_exceedsToken hidLast hlast.limited hlt hexceeds callsReturn

theorem nativeBudgetKept (hr : Registry E account s₀) (hid : HasId E account key id s₀)
    (hlimit : (s₀.sessionKeyDataOf E.keccak account id).nativeTokenSpendLimitBypassed = false)
    (hkeep : ∀ tx ∈ txs, tx.reconfigures account key = false)
    (horder : txs.Pairwise (fun a b => a.timestamp.toNat ≤ b.timestamp.toNat))
    (h48 : ∀ tx ∈ txs, tx.timestamp.toNat < 2 ^ 48) :
    NativeBudgetKept E account key id s₀ txs := by
  obtain ⟨hidLast, hlast, hbefore⟩ := ledger_invariant (P := fun t l => NativeKept
    (s₀.sessionKeyDataOf E.keccak account id).nativeTokenSpendLimit.limitAmount
    (s₀.sessionKeyDataOf E.keccak account id).nativeTokenSpendLimitTimeInfo.refreshInterval
    (t.sessionKeyDataOf E.keccak account id) l) nativeEntries_time
    (fun _ _ _ _ hidt hkey hok htime ht => ht.step hidt hkey hok htime) hr hid
    ⟨hlimit, .nil (s₀.sessionKeyDataOf E.keccak account id).nativeBudget⟩ h48 hkeep horder
  refine ⟨hlast.kept.withinBudget, ?_, ?_⟩
  · intro c hc calls callsReturn haction hsender
    obtain ⟨hidc, l, hkept⟩ := hbefore c hc
    obtain ⟨hlt, hcharge, -⟩ := charge_of_updateLimitsPreExec hidc
      (updateLimits_of_attempts hc haction hsender) hkept.limited
    exact ⟨hlt, hcharge⟩
  · intro timestamp calls callsReturn _ hexceeds
    exact batch_reverts_of_exceedsNative hidLast hlast.limited hexceeds callsReturn

/-- **The budgets of a key are kept**: of every token with a limit, and of the
native token unless its limit is bypassed. -/
theorem spendBudgets_kept {h₀ : List (Evm.Call (State W S) Tx)}
    (hrun₀ : Run (Session.step E) (State.initial E.set) h₀ s₀) (hid : HasId E account key id s₀)
    (hkeep : ∀ tx ∈ txs, tx.reconfigures account key = false)
    (horder : txs.Pairwise (fun a b => a.timestamp.toNat ≤ b.timestamp.toNat))
    (h48 : ∀ tx ∈ txs, tx.timestamp.toNat < 2 ^ 48) :
    (∀ token, (s₀.contractDataOf E.keccak account id token).isERC20WithSpendLimit = true →
      TokenBudgetKept E account key id token s₀ txs) ∧
    ((s₀.sessionKeyDataOf E.keccak account id).nativeTokenSpendLimitBypassed = false →
      NativeBudgetKept E account key id s₀ txs) := by
  have hr := registry_of_run hrun₀ account
  constructor
  · intro token hlimit
    exact tokenBudgetKept hr hid hlimit hkeep horder h48
  · intro hlimit
    exact nativeBudgetKept hr hid hlimit hkeep horder h48

/-! ### An agent with two budgets -/

/-- Any call to the token, 100 of it every 1000 seconds, and 10 native tokens. -/
def spendGrant : List Bytes :=
  [encodeCall selUpdateAccessListAddressEntry [token.toNat, 1, 0],
    encodeCall selSetERC20SpendLimit [token.toNat, 100, 1000],
    encodeCall selSetNativeTokenSpendLimit [10, 0]]

def batchAt (timestamp : Uint256) (calls : List Call) (callsReturn : Bool) : Tx :=
  ⟨wallet, timestamp, .executeWithSessionKey calls agent callsReturn⟩

/-- Two transfers, one that exceeds the limit, one whose calls fail, one with
native tokens in the next window. -/
def spendCalls : List Tx :=
  [batchAt 1500 [transferCall 60, transferCall 30] true, batchAt 1600 [transferCall 20] true,
    batchAt 1700 [transferCall 5] false, batchAt 2000 [⟨nextAgent, 7, []⟩, transferCall 80] true]

/-- The agent is registered under the first id, and the native limit is in force. -/
def spendLimited (s : State Term (List Address)) : Bool :=
  agentEnv.set.contains (s.sessionKeys wallet) agent
    && s.sessionKeyIdOf agentEnv.keccak wallet agent == 1
    && (s.contractDataOf agentEnv.keccak wallet 1 token).isERC20WithSpendLimit
    && !(s.sessionKeyDataOf agentEnv.keccak wallet 1).nativeTokenSpendLimitBypassed

theorem spendCalls_run :
    (step agentEnv (State.initial agentEnv.set)
      (walletTx (.addSessionKey agent 0 spendGrant))).map (fun s =>
        (spendLimited s, tokenLedger agentEnv wallet agent 1 token s spendCalls,
          nativeLedger agentEnv wallet agent 1 s spendCalls)) =
      some (true, [⟨1500, 60, false⟩, ⟨1500, 30, false⟩, ⟨2000, 80, true⟩],
        [⟨1500, 0, false⟩, ⟨2000, 7, false⟩]) := by
  decide +kernel

/-- Three of five transfers go through, within the budget. -/
theorem spendBudgets_kept_calls :
    ∃ s₀ : State Term (List Address),
      tokenLedger agentEnv wallet agent 1 token s₀ spendCalls =
        [⟨1500, 60, false⟩, ⟨1500, 30, false⟩, ⟨2000, 80, true⟩] ∧
      nativeLedger agentEnv wallet agent 1 s₀ spendCalls =
        [⟨1500, 0, false⟩, ⟨2000, 7, false⟩] ∧
      TokenBudgetKept agentEnv wallet agent 1 token s₀ spendCalls ∧
      NativeBudgetKept agentEnv wallet agent 1 s₀ spendCalls := by
  obtain ⟨s₀, hs₀, hout⟩ := Option.map_eq_some_iff.mp spendCalls_run
  rw [Prod.mk.injEq, Prod.mk.injEq] at hout
  obtain ⟨hlimited, htoken, hnative⟩ := hout
  simp only [spendLimited, Bool.and_eq_true, beq_iff_eq, Bool.not_eq_true'] at hlimited
  obtain ⟨⟨⟨hmem, hkeyId⟩, hlimit⟩, hbypassed⟩ := hlimited
  have hkeep : ∀ tx ∈ spendCalls, tx.reconfigures wallet agent = false := by decide +kernel
  have hkept := spendBudgets_kept (Run.nil.snoc hs₀) ⟨hmem, hkeyId⟩ hkeep (by decide +kernel)
    (by decide +kernel)
  exact ⟨s₀, htoken, hnative, hkept.1 token hlimit, hkept.2 hbypassed⟩

end Bufi.Session
