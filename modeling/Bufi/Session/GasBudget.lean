import Bufi.Session.EntryPoint

/-!
# The gas budget

Gas is counted during validation, where the time of the block cannot be read.
A validation that does not fit into the interval in force may start the next
one: it is admitted from `lastUsed + refreshInterval` on, and sets a flag.  The
execution, or anybody's call of `resetSessionKeyGasLimitTimestamp`, then writes
the time of the block and clears the flag; an execution that reverts does
neither, and while the flag is set no further interval can be started.

`GasKept` is the invariant: every restart is before `lastUsed`, unless the flag
is set.  It needs block times below `2 ^ 48`, since `lastUsed` only keeps the
low bits of later ones.
-/

namespace Bufi.Session

open Bufi.Evm

/-! ### One validation -/

/-- What a validation that passes does to the gas budget. -/
inductive GasUse (d : SessionKeyData) (cost : Uint256) (validAfter : Uint48)
    (d' : SessionKeyData) : Prop
  | fits (used : Uint256) :
      used.toNat = d.gasLimit.limitUsed.toNat + cost.toNat →
      used.toNat ≤ d.gasLimit.limitAmount.toNat →
      d' = { d with gasLimit := { d.gasLimit with limitUsed := used } } →
      GasUse d cost validAfter d'
  | restarts :
      d.gasLimitTimeInfo.refreshInterval ≠ 0 → d.gasLimitResetThisBundle = false →
      cost.toNat ≤ d.gasLimit.limitAmount.toNat →
      validAfter.toNat =
        d.gasLimitTimeInfo.lastUsed.toNat + d.gasLimitTimeInfo.refreshInterval.toNat →
      d' = { d with
        gasLimitResetThisBundle := true
        gasLimit := { d.gasLimit with limitUsed := cost } } →
      GasUse d cost validAfter d'

/-- **The three-way branch**, without the refusals. -/
theorem gasUse_of_check {cost : Uint256} {d d' : SessionKeyData} {validAfter : Uint48}
    (h : checkAndUpdateGasLimitUsage cost d = some (true, validAfter, d')) :
    GasUse d cost validAfter d' := by
  simp only [checkAndUpdateGasLimitUsage] at h
  by_cases hwrap : cost + d.gasLimit.limitUsed < cost
  · rw [if_pos hwrap] at h
    exact absurd h (by simp)
  rw [if_neg hwrap] at h
  have hused : (cost + d.gasLimit.limitUsed).toNat = d.gasLimit.limitUsed.toNat + cost.toNat := by
    rw [toNat_add_of_not_lt hwrap, Nat.add_comm]
  by_cases hinterval : d.gasLimitTimeInfo.refreshInterval = 0
  · rw [if_pos hinterval] at h
    by_cases hfits : cost + d.gasLimit.limitUsed ≤ d.gasLimit.limitAmount
    · rw [if_pos hfits, Option.some.injEq, Prod.mk.injEq, Prod.mk.injEq] at h
      exact .fits _ hused (BitVec.le_def.mp hfits) h.2.2.symm
    · rw [if_neg hfits] at h
      exact absurd h (by simp)
  rw [if_neg hinterval] at h
  by_cases hfits : cost + d.gasLimit.limitUsed ≤ d.gasLimit.limitAmount
  · rw [if_pos hfits, Option.map_eq_some_iff] at h
    obtain ⟨after, -, h⟩ := h
    rw [Prod.mk.injEq, Prod.mk.injEq] at h
    exact .fits _ hused (BitVec.le_def.mp hfits) h.2.2.symm
  rw [if_neg hfits] at h
  by_cases hnext : cost ≤ d.gasLimit.limitAmount ∧ d.gasLimitResetThisBundle = false
  · rw [if_pos hnext, Option.map_eq_some_iff] at h
    obtain ⟨after, hafter, h⟩ := h
    rw [Prod.mk.injEq, Prod.mk.injEq] at h
    obtain ⟨-, rfl, h⟩ := h
    exact .restarts hinterval hnext.2 (BitVec.le_def.mp hnext.1) (toNat_of_checkedAdd48 hafter)
      h.symm
  · rw [if_neg hnext] at h
    exact absurd h (by simp)

/-! ### The ledger -/

/-- The most an operation can cost, which is what is counted. -/
def gasCost (lib : UserOperationLib) (userOp : PackedUserOperation) : ℕ :=
  (getMaxGasCost lib userOp).toOption.elim 0 BitVec.toNat

variable {W S : Type}

section

variable (E : Env W S) (account key : Address) (id : Bytes32)

/-- An admitted operation of the key, with its cost; it restarts the count if it
sets the flag. -/
def gasEntries (c : Evm.Call (State W S) Tx) : List Entry :=
  match c.act.action with
  | .userOpValidationFunction _ userOp _ =>
    if c.act.session = some (account, key) then
      [⟨c.act.timestamp.toNat, gasCost E.lib userOp,
        !(c.pre.sessionKeyDataOf E.keccak account id).gasLimitResetThisBundle
          && (c.post.sessionKeyDataOf E.keccak account id).gasLimitResetThisBundle⟩]
    else []
  | _ => []

end

variable {E : Env W S} {account key : Address} {id : Bytes32} {s s' : State W S}

theorem gasEntries_time (c : Evm.Call (State W S) Tx) :
    ∀ e ∈ gasEntries E account key id c, e.time = c.act.timestamp.toNat := by
  intro e he
  simp only [gasEntries] at he
  split at he
  · split at he
    · rw [List.mem_singleton.mp he]
    · simp at he
  · simp at he

theorem gasEntries_of_session_ne {c : Evm.Call (State W S) Tx}
    (h : c.act.session ≠ some (account, key)) : gasEntries E account key id c = [] := by
  simp only [gasEntries]
  split
  · rw [if_neg h]
  · rfl

variable [DecidableEq W]

variable (E account key id) in
/-- The admitted operations of a sequence of calls. -/
def gasLedger (s : State W S) (txs : List Tx) : List Entry :=
  (attempts (entryPointStep E) s txs).flatMap (gasEntries E account key id)

/-! ### The invariant -/

/-- The meter and the ledger; a restart is before `lastUsed`, unless the flag is
set. -/
structure GasKept (limit : Uint256) (interval : Uint48) (d : SessionKeyData) (l : List Entry) :
    Prop where
  hasGasLimit : d.hasGasLimit = true
  limitAmount : d.gasLimit.limitAmount = limit
  refreshInterval : d.gasLimitTimeInfo.refreshInterval = interval
  counted : Counted limit.toNat interval.toNat d.gasLimit.limitUsed.toNat l
  once : interval = 0 → ∀ e ∈ l, e.restart = false
  restarts : ∀ e ∈ l, e.restart = true →
    d.gasLimitResetThisBundle = true ∨ e.time ≤ d.gasLimitTimeInfo.lastUsed.toNat

namespace GasKept

variable {limit : Uint256} {interval : Uint48} {d d' : SessionKeyData} {l : List Entry}

/-- Only the gas budget matters. -/
theorem congr (h : GasKept limit interval d l) (hhas : d'.hasGasLimit = d.hasGasLimit)
    (hbudget : d'.gasBudget = d.gasBudget)
    (hflag : d'.gasLimitResetThisBundle = d.gasLimitResetThisBundle) :
    GasKept limit interval d' l := by
  obtain ⟨htime, hlimit⟩ := Prod.mk.injEq .. ▸ hbudget
  constructor
  · rw [hhas]
    exact h.hasGasLimit
  · rw [hlimit]
    exact h.limitAmount
  · rw [htime]
    exact h.refreshInterval
  · rw [hlimit]
    exact h.counted
  · exact h.once
  · rw [hflag, htime]
    exact h.restarts

theorem validated (h : GasKept limit interval d l) {cost timestamp : Uint256}
    {validAfter : Uint48} (huse : GasUse d cost validAfter d')
    (hafter : validAfter.toNat ≤ timestamp.toNat) (htime : ∀ e ∈ l, e.time ≤ timestamp.toNat) :
    GasKept limit interval d' (l ++ [⟨timestamp.toNat, cost.toNat,
      !d.gasLimitResetThisBundle && d'.gasLimitResetThisBundle⟩]) := by
  cases huse with
  | fits used hused hle hd' =>
    have hrestart : (!d.gasLimitResetThisBundle && d'.gasLimitResetThisBundle) = false := by
      rw [hd']
      exact Bool.not_and_self _
    rw [hrestart]
    subst hd'
    rw [h.limitAmount] at hle
    refine ⟨h.hasGasLimit, h.limitAmount, h.refreshInterval, ?_, ?_, ?_⟩
    · rw [hused] at hle ⊢
      exact h.counted.add htime hle
    · intro hzero e he
      rcases List.mem_append.mp he with he | he
      · exact h.once hzero e he
      · rw [List.mem_singleton.mp he]
    · intro e he hr
      rcases List.mem_append.mp he with he | he
      · exact h.restarts e he hr
      · rw [List.mem_singleton.mp he] at hr
        exact absurd hr Bool.false_ne_true
  | restarts hinterval hflag hle hvalid hd' =>
    have hrestart : (!d.gasLimitResetThisBundle && d'.gasLimitResetThisBundle) = true := by
      rw [hd', hflag]
      rfl
    rw [hrestart]
    subst hd'
    rw [h.refreshInterval] at hinterval hvalid
    rw [h.limitAmount] at hle
    -- the flag was clear, so every earlier restart is before `lastUsed`
    have hpace : ∀ e ∈ l, e.restart = true → e.time + interval.toNat ≤ timestamp.toNat := by
      intro e he hr
      rcases h.restarts e he hr with hset | hlast
      · rw [hflag] at hset
        exact absurd hset Bool.false_ne_true
      · omega
    refine ⟨h.hasGasLimit, h.limitAmount, h.refreshInterval,
      h.counted.restart htime hpace hle, fun hzero => absurd hzero hinterval, ?_⟩
    intro e _ _
    exact .inl rfl

/-- The time of the block is written, whoever asks for it. -/
theorem finishGasReset (h : GasKept limit interval d l) {timestamp : Uint256}
    (h48 : timestamp.toNat < 2 ^ 48) (htime : ∀ e ∈ l, e.time ≤ timestamp.toNat) :
    GasKept limit interval (d.finishGasReset timestamp) l := by
  rw [SessionKeyData.finishGasReset]
  split
  · refine ⟨h.hasGasLimit, h.limitAmount, h.refreshInterval, h.counted, h.once, ?_⟩
    intro e he _
    exact .inr ((htime e he).trans (Nat.le_of_eq (toNat_toUint48 h48).symm))
  · exact h

end GasKept

/-- The native token limit is not the gas limit. -/
theorem GasKept.meterNative {limit : Uint256} {interval : Uint48} {d d' : SessionKeyData}
    {l : List Entry} (h : GasKept limit interval d l) {timestamp : Uint256} {n : ℕ}
    (hd : meterNative timestamp account key n d = .ok d') : GasKept limit interval d' l := by
  rw [Session.meterNative] at hd
  split at hd
  · obtain rfl := pure_eq_ok.mp hd
    exact h
  · simp only [bind_eq_ok, orRevert_eq_ok, require_eq_ok, exists_const, pure_eq_ok] at hd
    obtain ⟨r, -, -, rfl⟩ := hd
    exact h.congr rfl rfl rfl

/-- Every step keeps the invariant. -/
theorem GasKept.step {limit : Uint256} {interval : Uint48} {l : List Entry} {tx : Tx}
    (h : GasKept limit interval (s.sessionKeyDataOf E.keccak account id) l)
    (hid : HasId E account key id s) (hkey : KeyStep E account key id s tx s')
    (h48 : tx.timestamp.toNat < 2 ^ 48) (htime : ∀ e ∈ l, e.time ≤ tx.timestamp.toNat) :
    GasKept limit interval (s'.sessionKeyDataOf E.keccak account id)
      (l ++ gasEntries E account key id ⟨s, tx, s'⟩) := by
  cases hkey with
  | same hsession hperm =>
    have hdata : s'.sessionKeyDataOf E.keccak account id =
      s.sessionKeyDataOf E.keccak account id := congrArg Permissions.key hperm
    rw [gasEntries_of_session_ne hsession, List.append_nil, hdata]
    exact h
  | reset hsession hperm =>
    have hdata : s'.sessionKeyDataOf E.keccak account id =
      (s.sessionKeyDataOf E.keccak account id).finishGasReset tx.timestamp :=
      congrArg Permissions.key hperm
    rw [gasEntries_of_session_ne hsession, List.append_nil, hdata]
    exact h.finishGasReset h48 htime
  | @validated functionId userOp userOpHash validAfter d haction hsession hgas hafter hperm =>
    have hdata : s'.sessionKeyDataOf E.keccak account id = d := congrArg Permissions.key hperm
    rw [checkGas, if_pos h.hasGasLimit] at hgas
    simp only [bind_eq_ok, orRevert_eq_ok] at hgas
    obtain ⟨cost, hcost, hcheck⟩ := hgas
    have hamount : gasCost E.lib userOp = cost.toNat := by
      rw [gasCost, hcost]
      rfl
    simp only [gasEntries, haction, if_pos hsession, hdata, hamount]
    exact h.validated (gasUse_of_check hcheck) hafter htime
  | @executed calls haction hsession hpre =>
    obtain ⟨d, -, hnative, hdata⟩ := keyData_of_updateLimitsPreExec hid hpre
    simp only [gasEntries, haction, List.append_nil]
    rw [hdata]
    exact (h.meterNative hnative).finishGasReset h48 htime

/-- **The gas budget is kept**, whatever executions revert and whoever calls the
public reset, at block times below `2 ^ 48`. -/
theorem gasBudget_kept {h₀ : List (Evm.Call (State W S) Tx)} {s₀ : State W S}
    (hrun₀ : Run (Session.step E) (State.initial E.set) h₀ s₀) (hid : HasId E account key id s₀)
    (hlimit : (s₀.sessionKeyDataOf E.keccak account id).hasGasLimit = true) {txs : List Tx}
    (hkeep : ∀ tx ∈ txs, tx.reconfigures account key = false)
    (horder : txs.Pairwise (fun a b => a.timestamp.toNat ≤ b.timestamp.toNat))
    (h48 : ∀ tx ∈ txs, tx.timestamp.toNat < 2 ^ 48) :
    WithinBudget (s₀.sessionKeyDataOf E.keccak account id).gasLimit.limitAmount.toNat
      (s₀.sessionKeyDataOf E.keccak account id).gasLimitTimeInfo.refreshInterval.toNat
      (gasLedger E account key id s₀ txs) := by
  have hkept : GasKept (s₀.sessionKeyDataOf E.keccak account id).gasLimit.limitAmount
      (s₀.sessionKeyDataOf E.keccak account id).gasLimitTimeInfo.refreshInterval
      ((afterAttempts (entryPointStep E) s₀ txs).sessionKeyDataOf E.keccak account id)
      (gasLedger E account key id s₀ txs) := by
    refine (ledger_invariant (P := fun t l => GasKept _ _
      (t.sessionKeyDataOf E.keccak account id) l) gasEntries_time ?_
      (registry_of_run hrun₀ account) hid ?_ h48 hkeep horder).2.1
    · intro t tx t' l hidt hkey hok htime ht
      exact ht.step hidt hkey hok htime
    · refine ⟨hlimit, rfl, rfl, .nil _ _ _, fun _ e he => ?_, fun e he => ?_⟩
      · simp at he
      · simp at he
  refine hkept.counted.withinBudget ?_
  intro hzero
  exact hkept.once (BitVec.eq_of_toNat_eq hzero)

/-! ### An agent with a gas budget -/

/-- Any call to the token, and gas for 100 every 1000 seconds. -/
def gasGrant : List Bytes :=
  [encodeCall selUpdateAccessListAddressEntry [token.toNat, 1, 0],
    encodeCall selSetGasSpendLimit [100, 1000]]

/-- An operation that costs 60. -/
def gasUserOp : PackedUserOperation :=
  { transferUserOp 60 with accountGasLimits := 60, gasFees := 1 }

def validateAt (timestamp : Uint256) : Tx :=
  ⟨wallet, timestamp, .userOpValidationFunction 0 gasUserOp 0⟩

/-- Anybody resets the timestamp. -/
def resetAt (timestamp : Uint256) : Tx :=
  ⟨nextAgent, timestamp, .resetSessionKeyGasLimitTimestamp wallet agent⟩

/-- A restart whose execution reverts, one that is refused, and a reset. -/
def gasCalls : List Tx :=
  [validateAt 1500, validateAt 2500,
    ⟨wallet, 2500, .executeWithSessionKey [transferCall 60] agent false⟩, validateAt 2600,
    resetAt 2700, validateAt 3600]

/-- The agent is registered under the first id with a gas limit. -/
def gasLimited (s : State Term (List Address)) : Bool :=
  agentEnv.set.contains (s.sessionKeys wallet) agent
    && s.sessionKeyIdOf agentEnv.keccak wallet agent == 1
    && (s.sessionKeyDataOf agentEnv.keccak wallet 1).hasGasLimit

/-- The budget of the agent after the grant, and the ledger of a sequence of calls. -/
def gasOutcome (timestamp : Uint256) (txs : List Tx) : Option (Bool × Budget × List Entry) :=
  (step agentEnv (State.initial agentEnv.set)
    ⟨wallet, timestamp, .addSessionKey agent 0 gasGrant⟩).map (fun s =>
      (gasLimited s, (s.sessionKeyDataOf agentEnv.keccak wallet 1).gasBudget,
        gasLedger agentEnv wallet agent 1 s txs))

theorem gasCalls_run :
    gasOutcome 1000 gasCalls =
      some (true, (⟨1000, 1000⟩, ⟨100, 0⟩), [⟨1500, 60, false⟩, ⟨2500, 60, true⟩]) := by
  decide +kernel

theorem hasId_of_gasLimited {s : State Term (List Address)} (h : gasLimited s = true) :
    HasId agentEnv wallet agent 1 s ∧
      (s.sessionKeyDataOf agentEnv.keccak wallet 1).hasGasLimit = true := by
  simp only [gasLimited, Bool.and_eq_true, beq_iff_eq] at h
  exact ⟨⟨h.1.1, h.1.2⟩, h.2⟩

/-- Of four operations two are admitted; one of them restarts the count. -/
theorem gasBudget_kept_calls :
    ∃ s₀ : State Term (List Address),
      gasLedger agentEnv wallet agent 1 s₀ gasCalls = [⟨1500, 60, false⟩, ⟨2500, 60, true⟩] ∧
      (s₀.sessionKeyDataOf agentEnv.keccak wallet 1).gasBudget = (⟨1000, 1000⟩, ⟨100, 0⟩) ∧
      WithinBudget 100 1000 (gasLedger agentEnv wallet agent 1 s₀ gasCalls) := by
  obtain ⟨s₀, hs₀, hout⟩ := Option.map_eq_some_iff.mp gasCalls_run
  rw [Prod.mk.injEq, Prod.mk.injEq] at hout
  obtain ⟨hlimited, hbudget, hledger⟩ := hout
  obtain ⟨hid, hlimit⟩ := hasId_of_gasLimited hlimited
  have hkeep : ∀ tx ∈ gasCalls, tx.reconfigures wallet agent = false := by decide +kernel
  have hkept := gasBudget_kept (Run.nil.snoc hs₀) hid hlimit hkeep (by decide +kernel)
    (by decide +kernel)
  rw [show (s₀.sessionKeyDataOf agentEnv.keccak wallet 1).gasLimit = ⟨100, 0⟩ from
      congrArg Prod.snd hbudget,
    show (s₀.sessionKeyDataOf agentEnv.keccak wallet 1).gasLimitTimeInfo = ⟨1000, 1000⟩ from
      congrArg Prod.fst hbudget] at hkept
  exact ⟨s₀, hledger, hbudget, hkept⟩

/-- The first time that does not fit into 48 bits. -/
def lateTime : Uint256 := 0x1000000000000

/-- A restart, a reset and another restart in one block. -/
def lateGasCalls : List Tx :=
  [validateAt lateTime, validateAt lateTime, resetAt lateTime, validateAt lateTime]

theorem lateGasCalls_run :
    gasOutcome lateTime lateGasCalls =
      some (true, (⟨0, 1000⟩, ⟨100, 0⟩),
        [⟨lateTime.toNat, 60, false⟩, ⟨lateTime.toNat, 60, true⟩,
          ⟨lateTime.toNat, 60, true⟩]) := by
  decide +kernel

/-- A block time of `2 ^ 48` is stored as zero, and every interval seems over. -/
theorem gasBudget_not_kept_late :
    ¬ ∀ h₀ s₀, Run (step agentEnv) (State.initial agentEnv.set) h₀ s₀ →
      ∀ account key id, HasId agentEnv account key id s₀ →
        (s₀.sessionKeyDataOf agentEnv.keccak account id).hasGasLimit = true →
        ∀ txs : List Tx, (∀ tx ∈ txs, tx.reconfigures account key = false) →
          txs.Pairwise (fun a b => a.timestamp.toNat ≤ b.timestamp.toNat) →
          WithinBudget (s₀.sessionKeyDataOf agentEnv.keccak account id).gasLimit.limitAmount.toNat
            (s₀.sessionKeyDataOf agentEnv.keccak
              account id).gasLimitTimeInfo.refreshInterval.toNat
            (gasLedger agentEnv account key id s₀ txs) := by
  intro hall
  obtain ⟨s₀, hs₀, hout⟩ := Option.map_eq_some_iff.mp lateGasCalls_run
  rw [Prod.mk.injEq, Prod.mk.injEq] at hout
  obtain ⟨hlimited, hbudget, hledger⟩ := hout
  obtain ⟨hid, hlimit⟩ := hasId_of_gasLimited hlimited
  have hkept := hall _ s₀ (Run.nil.snoc hs₀) wallet agent 1 hid hlimit lateGasCalls
    (by decide +kernel) (by decide +kernel)
  rw [hledger, show (s₀.sessionKeyDataOf agentEnv.keccak wallet 1).gasLimitTimeInfo =
    ⟨0, 1000⟩ from congrArg Prod.fst hbudget] at hkept
  have hpaced := (hkept.2 (by decide)).1
  simp [Paced] at hpaced

end Bufi.Session
