import Bufi.Session.SpendBudget

/-!
# Validation and execution of a native spend

Validation cannot read the clock.  It answers with a time from which on the
operation is valid, and the execution looks at the block.  The two agree: a spend
that validation accepts either fits what is left of the window, and then it fits at
any time, or it fits a whole window only, and then the time is the end of the
window in force (`checkSpendLimitUsage_eq_some`).  So an execution that finds the
limit as validation saw it does not exceed it (`runtime_of_check`).

Another operation may have used the limit in between; the execution counts once
more and reverts, with everything it has written.
-/

namespace Bufi.Session

open Bufi.Evm

/-! ### One limit -/

/-- The end of the window fits into 48 bits. -/
def WindowFits (t : SpendLimitTimeInfo) : Prop :=
  t.lastUsed.toNat + t.refreshInterval.toNat < 2 ^ 48

instance (t : SpendLimitTimeInfo) : Decidable (WindowFits t) := inferInstanceAs (Decidable (_ < _))

theorem checkedAdd48_of_fits {t : SpendLimitTimeInfo} (h : WindowFits t) :
    checkedAdd48 t.lastUsed t.refreshInterval = some (t.lastUsed + t.refreshInterval) :=
  if_pos h

theorem windowActive_of_fits {t : SpendLimitTimeInfo} (h : WindowFits t) (timestamp : Uint256) :
    windowActive timestamp t = some (decide (InWindow timestamp t)) := by
  cases hactive : windowActive timestamp t with
  | none =>
    rw [windowActive] at hactive
    split at hactive
    · cases hactive
    · rw [checkedAdd48_of_fits h] at hactive
      cases hactive
  | some active =>
    have hwin := windowActive_eq_some hactive
    rw [Option.some.injEq, Bool.eq_iff_iff, decide_eq_true_iff]
    exact hwin

/-- What the check during validation accepts. -/
theorem checkSpendLimitUsage_eq_some {newUsage : Uint256} {b : Budget} {validAfter : Uint48}
    (h : checkSpendLimitUsage newUsage b = some (true, validAfter)) :
    ¬ newUsage + b.2.limitUsed < newUsage ∧
      (newUsage + b.2.limitUsed ≤ b.2.limitAmount ∨
        (newUsage ≤ b.2.limitAmount ∧ b.1.refreshInterval ≠ 0 ∧
          validAfter.toNat = b.1.lastUsed.toNat + b.1.refreshInterval.toNat)) := by
  unfold checkSpendLimitUsage at h
  simp only at h
  by_cases hwrap : newUsage + b.2.limitUsed < newUsage
  · rw [if_pos hwrap] at h
    cases h
  rw [if_neg hwrap] at h
  refine ⟨hwrap, ?_⟩
  by_cases hinterval : b.1.refreshInterval = 0
  · rw [if_pos hinterval, Option.some.injEq, Prod.mk.injEq] at h
    exact .inl (of_decide_eq_true h.1)
  rw [if_neg hinterval] at h
  by_cases hfits : newUsage + b.2.limitUsed ≤ b.2.limitAmount
  · exact .inl hfits
  rw [if_neg hfits] at h
  by_cases hnext : newUsage ≤ b.2.limitAmount
  · rw [if_pos hnext, Option.map_eq_some_iff] at h
    obtain ⟨windowEnd, hadd, hend⟩ := h
    rw [Prod.mk.injEq] at hend
    obtain ⟨-, rfl⟩ := hend
    exact .inr ⟨hnext, hinterval, toNat_of_checkedAdd48 hadd⟩
  · rw [if_neg hnext] at h
    cases h

/-- **What validation accepts, the execution does not refuse** from the time on that
validation has named. -/
theorem runtime_of_check {timestamp newUsage : Uint256} {b : Budget} {validAfter : Uint48}
    (hfit : WindowFits b.1) (h : checkSpendLimitUsage newUsage b = some (true, validAfter))
    (hafter : validAfter.toNat ≤ timestamp.toNat) :
    ∃ b', runtimeUpdateSpendLimitUsage timestamp newUsage b = some (true, b') := by
  obtain ⟨hwrap, hcase⟩ := checkSpendLimitUsage_eq_some h
  have hsum := toNat_add_of_not_lt hwrap
  rw [runtimeUpdateSpendLimitUsage, windowActive_of_fits hfit]
  by_cases hwin : InWindow timestamp b.1
  · have htotal : ¬ b.2.limitAmount < newUsage + b.2.limitUsed := by
      rcases hcase with hfits | ⟨-, hinterval, hend⟩
      · exact BitVec.not_lt.mpr hfits
      · -- the window is over when the operation becomes valid
        rcases hwin with hzero | hlt
        · exact absurd hzero hinterval
        · omega
    simp only [Option.bind_eq_bind, Option.bind_some, decide_eq_true hwin, if_true]
    rw [if_neg (not_or.mpr ⟨hwrap, htotal⟩)]
    exact ⟨_, rfl⟩
  · have husage : ¬ b.2.limitAmount < newUsage := by
      rw [BitVec.not_lt, BitVec.le_def]
      rcases hcase with hfits | ⟨hnext, -, -⟩
      · rw [BitVec.le_def] at hfits
        omega
      · exact BitVec.le_def.mp hnext
    simp only [Option.bind_eq_bind, Option.bind_some, decide_eq_false hwin, Bool.false_eq_true,
      if_false]
    rw [if_neg husage]
    exact ⟨_, rfl⟩

/-! ### Accepted operations -/

variable {W S : Type}

/-- The native token limit of a key: whether it is bypassed, and the limit. -/
def nativeLimitOf (K : Keccak W) (s : State W S) (account key : Address) : Bool × Budget :=
  ((s.sessionKeyDataOf K account (s.sessionKeyIdOf K account key)).nativeTokenSpendLimitBypassed,
    (s.sessionKeyDataOf K account (s.sessionKeyIdOf K account key)).nativeBudget)

variable [DecidableEq W]

/-- An operation of a key that `_checkUserOpPermissions` has accepted in some state. -/
structure AcceptedOp (E : Env W S) (account key : Address) where
  seen : State W S
  userOp : PackedUserOperation
  calls : List Call
  validation : Uint256
  left : State W S
  checked : checkUserOpPermissions E.keccak E.lib seen account userOp calls key =
    .ok (validation, left)
  accepted : validation.setWidth 160 = (0 : BitVec 160)

/-- Its execution, at a time from which on it is valid. -/
structure Execution (E : Env W S) (account key : Address) extends AcceptedOp E account key where
  timestamp : Uint256
  callsReturn : Bool
  due : (validAfterOf validation).toNat ≤ timestamp.toNat

variable {E : Env W S} {account key : Address}

def Execution.tx (x : Execution E account key) : Tx :=
  ⟨account, x.timestamp, .executeWithSessionKey x.calls key x.callsReturn⟩

theorem sumValues_eq_some {calls : List Call} {n : ℕ} (h : sumValues calls = some n) :
    n = nativeValue calls ∧ nativeValue calls < 2 ^ 256 := by
  suffices hall : ∀ (calls : List Call) (k n : ℕ), k < 2 ^ 256 →
      calls.foldlM (fun total call => checkedAdd total call.value.toNat) k = some n →
      n = k + nativeValue calls ∧ n < 2 ^ 256 by
    obtain ⟨hn, hlt⟩ := hall calls 0 n (by decide) h
    rw [Nat.zero_add] at hn
    exact ⟨hn, hn ▸ hlt⟩
  intro calls
  induction calls with
  | nil =>
    intro k n hk hn
    rw [List.foldlM_nil, Option.pure_def, Option.some.injEq] at hn
    exact ⟨hn.symm, hn ▸ hk⟩
  | cons call calls ih =>
    intro k n hk hn
    rw [List.foldlM_cons, Option.bind_eq_bind, Option.bind_eq_some_iff] at hn
    obtain ⟨m, hm, hn⟩ := hn
    rw [checkedAdd_eq_some] at hm
    obtain ⟨hlt, rfl⟩ := hm
    obtain ⟨hn, hn256⟩ := ih _ _ hlt hn
    refine ⟨?_, hn256⟩
    rw [hn, nativeValue_cons]
    omega

/-- What validation has found about the native tokens of an accepted operation. -/
theorem AcceptedOp.native (op : AcceptedOp E account key) :
    nativeValue op.calls < 2 ^ 256 ∧
      ((nativeLimitOf E.keccak op.seen account key).1 = true ∨
        ∃ validAfter, checkSpendLimitUsage (BitVec.ofNat 256 (nativeValue op.calls))
            (nativeLimitOf E.keccak op.seen account key).2 = some (true, validAfter) ∧
          validAfter.toNat ≤ (validAfterOf op.validation).toNat) := by
  have hcheck := op.checked
  have hok := op.accepted
  simp only [checkUserOpPermissions, bind_eq_ok, orRevert_eq_ok, pure_eq_ok, Prod.exists,
    Prod.mk.injEq] at hcheck
  obtain ⟨spend, hspend, spendOk, spendAfter, hnative, gasOk, gasAfter, d, -, hv, -⟩ := hcheck
  rw [hv] at hok ⊢
  have hsuccess := success_of_packValidation hok
  simp only [Bool.and_eq_true] at hsuccess
  obtain ⟨⟨⟨⟨-, rfl⟩, -⟩, -⟩, -⟩ := hsuccess
  obtain ⟨rfl, hlt⟩ := sumValues_eq_some hspend
  refine ⟨hlt, ?_⟩
  rw [checkNativeSpend] at hnative
  split at hnative
  · rename_i hbypassed
    exact .inl hbypassed
  · refine .inr ⟨spendAfter, hnative, ?_⟩
    rw [validAfterOf_packValidation, toNat_max48, toNat_max48]
    omega

/-- The native token step of an execution that finds the limit as validation saw it. -/
theorem Execution.meterNative (x : Execution E account key) {s : State W S}
    (hfit : WindowFits (nativeLimitOf E.keccak x.seen account key).2.1)
    (hsame : nativeLimitOf E.keccak s account key = nativeLimitOf E.keccak x.seen account key) :
    ∃ d, Session.meterNative x.timestamp account key (nativeValue x.calls)
      (s.sessionKeyDataOf E.keccak account (s.sessionKeyIdOf E.keccak account key)) = .ok d := by
  obtain ⟨-, hcase⟩ := x.native
  have hdue := x.due
  rw [← hsame] at hfit hcase
  rw [Session.meterNative]
  split
  · exact ⟨_, rfl⟩
  · rename_i hlimited
    obtain ⟨validAfter, hcheck, hafter⟩ := hcase.resolve_left hlimited
    obtain ⟨b, hb⟩ := runtime_of_check hfit hcheck (hafter.trans hdue)
    simp only [bind_eq_ok, orRevert_eq_ok, require_eq_ok, exists_const, pure_eq_ok]
    exact ⟨_, (true, b), hb, rfl, rfl⟩

/-- The loop over the calls has errors of its own. -/
theorem meterCalls_error {timestamp : Uint256} {id : Bytes32} {calls : List Call} {n : ℕ}
    {s : State W S} {e : Revert}
    (h : calls.foldlM (meterCall E timestamp account key id) (n, s) = .error e) :
    e ≠ .nativeTokenSpendLimitExceeded account key := by
  obtain ⟨call, -, acc, -, hcall⟩ :=
    foldlM_eq_error (P := fun _ => True) h trivial (fun _ _ _ _ _ _ => trivial)
  simp only [meterCall, bind_eq_error, orRevert_eq_error] at hcall
  rcases hcall with ⟨-, rfl⟩ | ⟨total, -, htoken | ⟨t, -, hpure⟩⟩
  · simp
  · simp only [meterToken] at htoken
    split at htoken
    · simp only [bind_eq_error, orRevert_eq_error, require_eq_error] at htoken
      rcases htoken with ⟨-, rfl⟩ | ⟨r, -, ⟨-, rfl⟩ | ⟨u, -, hpure⟩⟩
      · simp
      · simp
      · exact absurd hpure pure_ne_error
    · exact absurd htoken pure_ne_error
  · exact absurd hpure pure_ne_error

/-- No other step of an execution reverts with the error of the native limit. -/
theorem Execution.exec_ne (x : Execution E account key) {s : State W S}
    (hfit : WindowFits (nativeLimitOf E.keccak x.seen account key).2.1)
    (hsame : nativeLimitOf E.keccak s account key = nativeLimitOf E.keccak x.seen account key) :
    exec E s x.tx ≠ .error (.nativeTokenSpendLimitExceeded account key) := by
  obtain ⟨d, hd⟩ := x.meterNative hfit hsame
  intro herr
  simp only [exec, Execution.tx, executeWithSessionKey, updateLimitsPreExec, bind_eq_error,
    require_eq_error] at herr
  rcases herr with (hcalls | ⟨⟨n, t⟩, hcalls, hnative | ⟨d', -, hpure⟩⟩) | ⟨t, -, hreturn⟩
  · exact meterCalls_error hcalls rfl
  · obtain ⟨hn, -, hdata⟩ := native_of_meterCalls hcalls (by decide)
    rw [Nat.zero_add] at hn
    rw [hn, State.sessionKeyDataOf, hdata, ← State.sessionKeyDataOf, hd] at hnative
    cases hnative
  · exact absurd hpure pure_ne_error
  · rcases hreturn with ⟨-, hne⟩ | ⟨_, -, hpure⟩
    · cases hne
    · exact absurd hpure pure_ne_error

/-! ### Executions in any order -/

/-- An execution within the limit: unless the limit is bypassed, the native tokens
are charged to it. -/
structure WithinNativeLimit (timestamp : Uint256) (calls : List Call) (before after : Bool × Budget) :
    Prop where
  bypassed : after.1 = before.1
  charged : before.1 = false →
    Charge timestamp before.2 (BitVec.ofNat 256 (nativeValue calls)) after.2
  unmetered : before.1 = true → after.2 = before.2

theorem withinNativeLimit_of_exec {timestamp : Uint256} {calls : List Call} {callsReturn : Bool}
    {s s' : State W S}
    (h : step E s ⟨account, timestamp, .executeWithSessionKey calls key callsReturn⟩ = some s') :
    WithinNativeLimit timestamp calls (nativeLimitOf E.keccak s account key)
      (nativeLimitOf E.keccak s' account key) := by
  have hpre := (executeWithSessionKey_eq_ok.mp (toOption_eq_some.mp h)).1
  have hkeyId := (updateLimitsPreExec_keyWrite hpre).keyId account key
  rw [updateLimitsPreExec_eq_ok] at hpre
  obtain ⟨n, t, d, hcalls, hnative, rfl⟩ := hpre
  obtain ⟨hn, -, hdata⟩ := native_of_meterCalls hcalls (by decide)
  rw [Nat.zero_add] at hn
  rw [hn, State.sessionKeyDataOf, hdata, ← State.sessionKeyDataOf] at hnative
  obtain ⟨hflag, hbudget⟩ := native_of_finishGasReset d timestamp
  have hread : (t.setKeyData E.keccak account (s.sessionKeyIdOf E.keccak account key)
      (d.finishGasReset timestamp)).sessionKeyDataOf E.keccak account
        (s.sessionKeyIdOf E.keccak account key) = d.finishGasReset timestamp := by
    have hperm := t.permissionsOf_setKeyData E.keccak account account
      (s.sessionKeyIdOf E.keccak account key) (s.sessionKeyIdOf E.keccak account key)
      (d.finishGasReset timestamp)
    rw [if_pos ⟨rfl, rfl⟩] at hperm
    exact congrArg Permissions.key hperm
  have hafter : nativeLimitOf E.keccak (t.setKeyData E.keccak account
      (s.sessionKeyIdOf E.keccak account key) (d.finishGasReset timestamp)) account key =
      (d.nativeTokenSpendLimitBypassed, d.nativeBudget) := by
    rw [nativeLimitOf, hkeyId, hread, hflag, hbudget]
  rw [hafter]
  cases hbypassed : (s.sessionKeyDataOf E.keccak account
      (s.sessionKeyIdOf E.keccak account key)).nativeTokenSpendLimitBypassed with
  | true =>
    rw [Session.meterNative, if_pos hbypassed, pure_eq_ok] at hnative
    rw [hnative]
    exact ⟨rfl, fun hfalse => absurd (hfalse.symm.trans hbypassed) Bool.false_ne_true, fun _ => rfl⟩
  | false =>
    obtain ⟨hcharge, hd⟩ := charge_of_meterNative hnative hbypassed
    exact ⟨hd.trans hbypassed.symm, fun _ => hcharge,
      fun htrue => absurd (hbypassed.symm.trans htrue) Bool.false_ne_true⟩

/-- **Validation and execution agree on native spending.**  An execution that finds
the limit as validation saw it is not refused for it; and in any sequence of calls
every execution is within the limit, or reverts and changes nothing. -/
theorem nativeSpend_agrees :
    (∀ (x : Execution E account key) (s : State W S),
      WindowFits (nativeLimitOf E.keccak x.seen account key).2.1 →
      nativeLimitOf E.keccak s account key = nativeLimitOf E.keccak x.seen account key →
      (∃ d, meterNative x.timestamp account key (nativeValue x.calls)
        (s.sessionKeyDataOf E.keccak account (s.sessionKeyIdOf E.keccak account key)) = .ok d) ∧
      exec E s x.tx ≠ .error (.nativeTokenSpendLimitExceeded account key)) ∧
    ∀ (s₀ : State W S) (txs : List Tx) (i : ℕ) (x : Execution E account key),
      txs[i]? = some x.tx →
      WithinNativeLimit x.timestamp x.calls
        (nativeLimitOf E.keccak (afterAttempts (step E) s₀ (txs.take i)) account key)
        (nativeLimitOf E.keccak (afterAttempts (step E) s₀ (txs.take (i + 1))) account key) ∨
      (step E (afterAttempts (step E) s₀ (txs.take i)) x.tx = none ∧
        afterAttempts (step E) s₀ (txs.take (i + 1)) =
          afterAttempts (step E) s₀ (txs.take i)) := by
  refine ⟨fun x s hfit hsame => ⟨x.meterNative hfit hsame, x.exec_ne hfit hsame⟩, ?_⟩
  intro s₀ txs i x hi
  have hnext : afterAttempts (step E) s₀ (txs.take (i + 1)) =
      (step E (afterAttempts (step E) s₀ (txs.take i)) x.tx).getD
        (afterAttempts (step E) s₀ (txs.take i)) := by
    rw [List.take_add_one, hi, Option.toList_some, afterAttempts_concat]
  rw [hnext]
  cases hstep : step E (afterAttempts (step E) s₀ (txs.take i)) x.tx with
  | none => exact .inr ⟨rfl, rfl⟩
  | some s' => exact .inl (withinNativeLimit_of_exec hstep)

/-! ### A spend for the next window -/

/-- Any call to the token, with 10 native tokens every 1000 seconds. -/
def nativeGrant : List Bytes :=
  [encodeCall selUpdateAccessListAddressEntry [token.toNat, 1, 0],
    encodeCall selSetNativeTokenSpendLimit [10, 1000]]

def payCalls : List Call := [⟨token, 7, []⟩]

def payUserOp : PackedUserOperation :=
  { transferUserOp 0 with
    callData := encodeCall 0x31d99c2c [0x40, agent.toNat, 1, 0x20, token.toNat, 7, 0x60, 0] }

/-- The agent spends 7 of its 10, and asks for 7 more. -/
def payAgain : Option (State Term (List Address) × Uint256 × State Term (List Address)) :=
  ((step agentEnv (State.initial agentEnv.set)
    (walletTx (.addSessionKey agent 0 nativeGrant))).bind (fun s =>
      step agentEnv s (batchAt 1500 payCalls true))).bind (fun s =>
        (checkUserOpPermissions agentEnv.keccak agentEnv.lib s wallet payUserOp payCalls
          agent).toOption.map (fun r => (s, r)))

theorem payAgain_runs :
    payAgain.map (fun r => (nativeLimitOf agentEnv.keccak r.1 wallet agent,
      r.2.1.setWidth 160 == (0 : BitVec 160), validAfterOf r.2.1)) =
      some ((false, (⟨1000, 1000⟩, ⟨10, 7⟩)), true, 2000) := by
  decide +kernel

/-- The operation becomes valid with the next window, and is not refused in it. -/
theorem nativeSpend_agrees_nextWindow :
    ∃ x : Execution agentEnv wallet agent,
      nativeLimitOf agentEnv.keccak x.seen wallet agent =
        (false, (⟨1000, 1000⟩, ⟨10, 7⟩)) ∧
      x.calls = payCalls ∧ validAfterOf x.validation = 2000 ∧ x.timestamp = 2000 ∧
      exec agentEnv x.seen x.tx ≠ .error (.nativeTokenSpendLimitExceeded wallet agent) := by
  obtain ⟨⟨s, v, t⟩, hrun, hout⟩ := Option.map_eq_some_iff.mp payAgain_runs
  simp only [Prod.mk.injEq, beq_iff_eq] at hout
  obtain ⟨hlimit, haccepted, hafter⟩ := hout
  obtain ⟨s', -, hmap⟩ := Option.bind_eq_some_iff.mp hrun
  obtain ⟨r, hcheck, hr⟩ := Option.map_eq_some_iff.mp hmap
  rw [Prod.mk.injEq] at hr
  obtain ⟨rfl, rfl⟩ := hr
  let x : Execution agentEnv wallet agent :=
    { seen := s', userOp := payUserOp, calls := payCalls, validation := v, left := t
      checked := toOption_eq_some.mp hcheck, accepted := haccepted
      timestamp := 2000, callsReturn := true, due := by rw [hafter]; decide }
  have hfit : WindowFits (nativeLimitOf agentEnv.keccak x.seen wallet agent).2.1 := by
    rw [show nativeLimitOf agentEnv.keccak x.seen wallet agent =
      (false, (⟨1000, 1000⟩, ⟨10, 7⟩)) from hlimit]
    decide
  exact ⟨x, hlimit, rfl, hafter, rfl, (nativeSpend_agrees.1 x s' hfit rfl).2⟩

end Bufi.Session
