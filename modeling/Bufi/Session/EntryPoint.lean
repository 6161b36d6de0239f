import Bufi.Evm.Ledger
import Bufi.Session.Bundle

/-!
# Sequences of calls at an account

A validation of the EntryPoint counts if the plugin reports success and the
block is not before the time it reports; otherwise it is undone, as is every
call that reverts.  What else the EntryPoint checks can only refuse more.

A call that does not reconfigure a key leaves the key its id, and does one of
four things to what is stored under it: nothing, the public reset, what an
admitted validation does, or what an execution does.  `keyStep_of_step` says
so; the budgets of a key are followed through its cases.
-/

namespace Bufi.Session

open Bufi.Evm

/-! ### Validation data -/

/-- The time from which on an operation is valid. -/
def validAfterOf (validationData : Uint256) : Uint48 := (validationData >>> 208).setWidth 48

/-- Success, and not too early. -/
def admits (timestamp validationData : Uint256) : Bool :=
  validationData.setWidth 160 == (0 : BitVec 160)
    && decide ((validAfterOf validationData).toNat ≤ timestamp.toNat)

theorem getLsbD_packValidation (success : Bool) (validUntil validAfter : Uint48) (i : ℕ) :
    (packValidation success validUntil validAfter).getLsbD i =
      (((decide (i = 0) && !success)
        || (decide (i < 256) && !decide (i < 160) && validUntil.getLsbD (i - 160)))
        || (decide (i < 256) && !decide (i < 208) && validAfter.getLsbD (i - 208))) := by
  have hbit : ((if success then 0 else 1 : ℕ) : Uint256).getLsbD i =
      (decide (i = 0) && !success) := by
    cases success with
    | true => simp
    | false => simp [BitVec.getLsbD_one]
  rw [packValidation, BitVec.getLsbD_or, BitVec.getLsbD_or, hbit, BitVec.getLsbD_shiftLeft,
    BitVec.getLsbD_shiftLeft, BitVec.getLsbD_setWidth, BitVec.getLsbD_setWidth]
  by_cases hi : i < 256
  · simp [hi, show i - 160 < 256 by omega, show i - 208 < 256 by omega]
  · simp [hi]

theorem validAfterOf_packValidation (success : Bool) (validUntil validAfter : Uint48) :
    validAfterOf (packValidation success validUntil validAfter) = validAfter := by
  ext i hi
  have huntil : validUntil.getLsbD (208 + i - 160) = false := BitVec.getLsbD_of_ge _ _ (by omega)
  rw [validAfterOf, BitVec.getElem_setWidth, BitVec.getLsbD_ushiftRight, getLsbD_packValidation]
  simp [huntil, hi, show 208 + i < 256 by omega]

theorem success_of_packValidation {success : Bool} {validUntil validAfter : Uint48}
    (h : (packValidation success validUntil validAfter).setWidth 160 = (0 : BitVec 160)) :
    success = true := by
  have hlow := congrArg (fun v => v.getLsbD 0) h
  simp only [BitVec.getLsbD_setWidth, getLsbD_packValidation] at hlow
  cases success with
  | true => rfl
  | false => simp at hlow

/-- The signature flag is in the lowest bit. -/
theorem validAfterOf_or {v flag : Uint256} (h : flag = 0 ∨ flag = 1) :
    validAfterOf (v ||| flag) = validAfterOf v := by
  have hzero : flag >>> 208 = 0 := by
    rcases h with rfl | rfl
    · decide
    · decide
  rw [validAfterOf, BitVec.ushiftRight_or_distrib, hzero]
  simp [validAfterOf]

theorem toNat_max48 (a b : Uint48) : (max48 a b).toNat = max a.toNat b.toNat := by
  rw [max48]
  split
  · rename_i hlt
    rw [BitVec.lt_def] at hlt
    omega
  · rename_i hle
    rw [BitVec.lt_def] at hle
    omega

/-! ### Steps -/

/-- The account and the key a validation or an execution is for. -/
def Tx.session (tx : Tx) : Option (Address × Address) :=
  match tx.action with
  | .userOpValidationFunction _ userOp _ =>
    (decodeExecute userOp.callData).map (fun args => (tx.sender, args.2))
  | .executeWithSessionKey _ sessionKey _ => some (tx.sender, sessionKey)
  | _ => none

/-- The account changes the permissions of the key, or takes its id away. -/
def Tx.reconfigures (tx : Tx) (account key : Address) : Bool :=
  tx.sender == account &&
    match tx.action with
    | .onUninstall => true
    | .removeSessionKey sessionKey _ => sessionKey == key
    | .rotateSessionKey oldSessionKey _ _ => oldSessionKey == key
    | .updateKeyPermissions sessionKey _ => sessionKey == key
    | _ => false

variable {W S : Type} {E : Env W S} {account key : Address} {id : Bytes32} {s s' : State W S}

theorem HasId.of_sameAccount (h : HasId E account key id s)
    (hsame : SameAccount E.keccak account s s') : HasId E account key id s' where
  registered := by rw [hsame.sessionKeys]; exact h.registered
  keyId := (hsame.keyId key).trans h.keyId

/-- A write under the id of another key. -/
theorem permissions_of_keyWrite_ne (hr : Registry E account s) (hid : HasId E account key id s)
    {other : Address} (hne : other ≠ key)
    (hwrite : KeyWrite E.keccak account (s.sessionKeyIdOf E.keccak account other) s s') :
    s'.permissionsOf E.keccak account id = s.permissionsOf E.keccak account id := by
  refine hwrite.permissions account id ?_
  rintro ⟨-, he⟩
  have hnz : s.sessionKeyIdOf E.keccak account key ≠ 0 := (hr.registered key).mp hid.registered
  exact hne (hr.distinct key other hnz (hid.keyId.trans he)).symm

/-- Another key gets the next id. -/
theorem permissions_of_keyAdded (hr : Registry E account s) (hid : HasId E account key id s)
    {timestamp : Uint256} {newKey : Address} {updates : List Bytes}
    (hadd : KeyAdded E timestamp account newKey updates s s') :
    s'.permissionsOf E.keccak account id = s.permissionsOf E.keccak account id := by
  refine hadd.permissions id ?_
  rw [← hid.keyId]
  exact hr.keyId_ne_next hadd.counter_lt key

variable [DecidableEq W]

variable (E) in
/-- A call of the plugin; a validation that is not admitted is undone. -/
def entryPointStep (s : State W S) (tx : Tx) : Option (State W S) :=
  match tx.action with
  | .userOpValidationFunction functionId userOp userOpHash =>
    (userOpValidationFunction E tx.sender s functionId userOp userOpHash).toOption.bind (fun r =>
      if admits tx.timestamp r.1 then some r.2 else none)
  | _ => step E s tx

theorem exec_of_entryPointStep {tx : Tx} (h : entryPointStep E s tx = some s') :
    exec E s tx = .ok s' := by
  obtain ⟨sender, timestamp, action⟩ := tx
  cases action with
  | userOpValidationFunction functionId userOp userOpHash =>
    rw [entryPointStep, Option.bind_eq_some_iff] at h
    obtain ⟨r, hr, h⟩ := h
    rw [Option.ite_none_right_eq_some, Option.some.injEq] at h
    simp only [exec]
    rw [toOption_eq_some.mp hr, ← h.2]
    rfl
  | _ => exact toOption_eq_some.mp h

/-- What a call does to what is stored under the id of a key it leaves alone. -/
inductive KeyStep (E : Env W S) (account key : Address) (id : Bytes32) (s : State W S) (tx : Tx)
    (s' : State W S) : Prop
  | same : tx.session ≠ some (account, key) →
      s'.permissionsOf E.keccak account id = s.permissionsOf E.keccak account id →
      KeyStep E account key id s tx s'
  | reset : tx.session ≠ some (account, key) →
      s'.permissionsOf E.keccak account id =
        (s.permissionsOf E.keccak account id).mapKey (·.finishGasReset tx.timestamp) →
      KeyStep E account key id s tx s'
  | validated {functionId : Uint8} {userOp : PackedUserOperation} {userOpHash : Bytes32}
      {validAfter : Uint48} {d : SessionKeyData} :
      tx.action = .userOpValidationFunction functionId userOp userOpHash →
      tx.session = some (account, key) →
      checkGas E.lib userOp (s.sessionKeyDataOf E.keccak account id) = .ok (true, validAfter, d) →
      validAfter.toNat ≤ tx.timestamp.toNat →
      s'.permissionsOf E.keccak account id =
        (s.permissionsOf E.keccak account id).mapKey (fun _ => d) →
      KeyStep E account key id s tx s'
  | executed {calls : List Call} :
      tx.action = .executeWithSessionKey calls key true →
      tx.session = some (account, key) →
      updateLimitsPreExec E tx.timestamp account s calls key = .ok s' →
      KeyStep E account key id s tx s'

/-- A registered key is not among those of an installation. -/
theorem keeps_of_installed (hr : Registry E account s) (hid : HasId E account key id s)
    {timestamp : Uint256} {entries : List (Address × Bytes32 × List Bytes)}
    (h : entries.foldlM (addEntry E timestamp account) s = .ok s') :
    HasId E account key id s' ∧
      s'.permissionsOf E.keccak account id = s.permissionsOf E.keccak account id := by
  have hinv : Registry E account s' ∧ HasId E account key id s' ∧
      s'.permissionsOf E.keccak account id = s.permissionsOf E.keccak account id := by
    refine foldlM_invariant (P := fun t => Registry E account t ∧ HasId E account key id t ∧
      t.permissionsOf E.keccak account id = s.permissionsOf E.keccak account id) h
      ⟨hr, hid, rfl⟩ ?_
    rintro t entry t' ⟨hrt, hidt, hperm⟩ hentry
    have hadd := addEntry_eq_ok hentry
    exact ⟨hrt.of_keyAdded hadd, hidt.of_keyAdded hadd,
      (permissions_of_keyAdded hrt hidt hadd).trans hperm⟩
  exact hinv.2

/-- What an admitted validation has checked and written. -/
theorem gas_of_validation {functionId : Uint8} {userOp : PackedUserOperation}
    {userOpHash : Bytes32} {timestamp v : Uint256} {calls : List Call}
    (h : userOpValidationFunction E account s functionId userOp userOpHash = .ok (v, s'))
    (hadmits : admits timestamp v = true)
    (hdecode : decodeExecute userOp.callData = some (calls, key)) :
    ∃ validAfter d, checkGas E.lib userOp (s.sessionKeyDataOf E.keccak account
        (s.sessionKeyIdOf E.keccak account key)) = .ok (true, validAfter, d) ∧
      validAfter.toNat ≤ timestamp.toNat ∧
      s' = s.setKeyData E.keccak account (s.sessionKeyIdOf E.keccak account key) d := by
  rw [admits, Bool.and_eq_true, decide_eq_true_iff] at hadmits
  rw [userOpValidationFunction] at h
  split at h
  · simp only [bind_eq_ok, orRevert_eq_ok, require_eq_ok, exists_const, pure_eq_ok,
      Prod.exists, Prod.mk.injEq] at h
    obtain ⟨calls', key', hdecode', signer, -, -, w, t, hcheck, hok, rfl, rfl⟩ := h
    rw [hdecode, Option.some.injEq, Prod.mk.injEq] at hdecode'
    obtain ⟨rfl, rfl⟩ := hdecode'
    simp only [checkUserOpPermissions, bind_eq_ok, orRevert_eq_ok, pure_eq_ok, Prod.exists,
      Prod.mk.injEq] at hcheck
    obtain ⟨spend, -, spendOk, spendValidAfter, -, gasOk, validAfter, d, hgas, rfl, rfl⟩ := hcheck
    have hsuccess := success_of_packValidation hok
    simp only [Bool.and_eq_true] at hsuccess
    obtain ⟨⟨-, rfl⟩, -⟩ := hsuccess
    refine ⟨validAfter, d, hgas, ?_, rfl⟩
    have hafter := hadmits.2
    rw [validAfterOf_or, validAfterOf_packValidation] at hafter
    · rw [toNat_max48] at hafter
      omega
    · split
      · exact .inl rfl
      · exact .inr rfl
  · exact absurd h (by simp [throw, throwThe, MonadExceptOf.throw])

/-- A call by or for another account. -/
theorem keyStep_of_other (hid : HasId E account key id s) {tx : Tx} (hne : account ≠ tx.account)
    (h : entryPointStep E s tx = some s') :
    HasId E account key id s' ∧ KeyStep E account key id s tx s' := by
  have hsame := sameAccount_of_exec (exec_of_entryPointStep h) hne
  refine ⟨hid.of_sameAccount hsame, .same ?_ (hsame.permissions id)⟩
  obtain ⟨sender, timestamp, action⟩ := tx
  cases action with
  | userOpValidationFunction functionId userOp userOpHash =>
    simp only [Tx.session, ne_eq, Option.map_eq_some_iff, Prod.mk.injEq, not_exists, not_and]
    intro args _ he
    exact absurd he.symm hne
  | executeWithSessionKey calls sessionKey callsReturn =>
    simp only [Tx.session, ne_eq, Option.some.injEq, Prod.mk.injEq, not_and]
    intro he
    exact absurd he.symm hne
  | _ => simp [Tx.session]

/-- **What a call does to a key it does not reconfigure.** -/
theorem keyStep_of_step (hr : Registry E account s) (hid : HasId E account key id s) {tx : Tx}
    (hkeep : tx.reconfigures account key = false) (h : entryPointStep E s tx = some s') :
    HasId E account key id s' ∧ KeyStep E account key id s tx s' := by
  by_cases hacc : account = tx.account
  swap
  · exact keyStep_of_other hid hacc h
  have hexec := exec_of_entryPointStep h
  obtain ⟨sender, timestamp, action⟩ := tx
  cases action with
  | onInstall data =>
    obtain rfl : account = sender := hacc
    obtain ⟨keys, tags, updates, -, -, -, hadds⟩ := onInstall_eq_ok hexec
    obtain ⟨hid', hperm⟩ := keeps_of_installed hr hid hadds
    exact ⟨hid', .same (by simp [Tx.session]) hperm⟩
  | onUninstall =>
    obtain rfl : account = sender := hacc
    simp [Tx.reconfigures] at hkeep
  | addSessionKey newKey tag updates =>
    obtain rfl : account = sender := hacc
    change addSessionKey E timestamp account s newKey tag updates = .ok s' at hexec
    have hadd := addSessionKey_eq_ok hexec
    exact ⟨hid.of_keyAdded hadd, .same (by simp [Tx.session]) (permissions_of_keyAdded hr hid hadd)⟩
  | removeSessionKey oldKey predecessor =>
    obtain rfl : account = sender := hacc
    have hremove := removeSessionKey_eq_ok hexec
    have hne : oldKey ≠ key := by simpa [Tx.reconfigures] using hkeep
    exact ⟨hid.of_keyRemoved hne.symm hremove,
      .same (by simp [Tx.session]) (hremove.permissions id)⟩
  | rotateSessionKey oldKey predecessor newKey =>
    obtain rfl : account = sender := hacc
    have hrotate := rotateSessionKey_eq_ok hexec
    have hne : oldKey ≠ key := by simpa [Tx.reconfigures] using hkeep
    exact ⟨hid.of_keyRotated hne.symm hrotate,
      .same (by simp [Tx.session]) (hrotate.permissions id)⟩
  | updateKeyPermissions other updates =>
    obtain rfl : account = sender := hacc
    obtain ⟨-, hwrite, -⟩ := updateKeyPermissions_eq_ok hexec
    have hne : other ≠ key := by simpa [Tx.reconfigures] using hkeep
    exact ⟨hid.of_keyWrite hwrite, .same (by simp [Tx.session])
      (permissions_of_keyWrite_ne hr hid hne hwrite)⟩
  | userOpValidationFunction functionId userOp userOpHash =>
    obtain rfl : account = sender := hacc
    rw [entryPointStep, Option.bind_eq_some_iff] at h
    obtain ⟨⟨v, t⟩, hv, h⟩ := h
    rw [Option.ite_none_right_eq_some, Option.some.injEq] at h
    obtain ⟨hadmits, rfl⟩ := h
    rw [toOption_eq_some] at hv
    obtain ⟨calls, sessionKey, hdecode, -, hwrite, -⟩ := userOpValidationFunction_eq_ok hv
    refine ⟨hid.of_keyWrite hwrite, ?_⟩
    by_cases hkey : sessionKey = key
    · subst hkey
      obtain ⟨validAfter, d, hgas, hafter, rfl⟩ := gas_of_validation hv hadmits hdecode
      rw [hid.keyId] at hgas
      refine .validated rfl (by simp [Tx.session, hdecode]) hgas hafter ?_
      rw [hid.keyId, State.permissionsOf_setKeyData, if_pos ⟨rfl, rfl⟩]
    · refine .same ?_ (permissions_of_keyWrite_ne hr hid hkey hwrite)
      simpa [Tx.session, hdecode] using hkey
  | executeWithSessionKey calls sessionKey callsReturn =>
    obtain rfl : account = sender := hacc
    obtain ⟨hpre, rfl⟩ := executeWithSessionKey_eq_ok.mp hexec
    have hwrite := updateLimitsPreExec_keyWrite hpre
    refine ⟨hid.of_keyWrite hwrite, ?_⟩
    by_cases hkey : sessionKey = key
    · subst hkey
      exact .executed rfl rfl hpre
    · refine .same ?_ (permissions_of_keyWrite_ne hr hid hkey hwrite)
      simpa [Tx.session] using hkey
  | resetSessionKeyGasLimitTimestamp target sessionKey =>
    obtain rfl : account = target := hacc
    obtain ⟨-, hwrite⟩ := resetSessionKeyGasLimitTimestamp_eq_ok hexec
    refine ⟨hid.of_keyWrite hwrite, ?_⟩
    by_cases hkey : sessionKey = key
    · subst hkey
      refine .reset (by simp [Tx.session]) ?_
      simp only [exec, resetSessionKeyGasLimitTimestamp, bind_eq_ok, pure_eq_ok,
        loadSessionKeyId_eq_ok] at hexec
      obtain ⟨i, ⟨-, rfl⟩, rfl⟩ := hexec
      rw [hid.keyId, State.permissionsOf_setKeyData, if_pos ⟨rfl, rfl⟩]
      rfl
    · exact .same (by simp [Tx.session]) (permissions_of_keyWrite_ne hr hid hkey hwrite)

/-! ### Executions -/

/-- The native tokens a list of calls sends. -/
def nativeValue (calls : List Call) : ℕ := (calls.map (fun call => call.value.toNat)).sum

theorem nativeValue_cons (call : Call) (calls : List Call) :
    nativeValue (call :: calls) = call.value.toNat + nativeValue calls :=
  List.sum_cons

theorem meterToken_keyData {timestamp : Uint256} {call : Call}
    (h : meterToken E timestamp account key id s call = .ok s') : s'.keyData = s.keyData := by
  simp only [meterToken] at h
  split at h
  · simp only [bind_eq_ok, orRevert_eq_ok, require_eq_ok, exists_const, pure_eq_ok] at h
    obtain ⟨-, -, -, rfl⟩ := h
    rfl
  · obtain rfl := pure_eq_ok.mp h
    rfl

/-- The loop over the calls adds up their values and leaves the key's own data. -/
theorem native_of_meterCalls {timestamp : Uint256} {calls : List Call} {n m : ℕ}
    (h : calls.foldlM (meterCall E timestamp account key id) (n, s) = .ok (m, s'))
    (hn : n < 2 ^ 256) :
    m = n + nativeValue calls ∧ m < 2 ^ 256 ∧ s'.keyData = s.keyData := by
  induction calls generalizing n s with
  | nil =>
    rw [foldlM_nil_eq_ok, Prod.mk.injEq] at h
    obtain ⟨rfl, rfl⟩ := h
    exact ⟨rfl, hn, rfl⟩
  | cons call calls ih =>
    rw [foldlM_cons_eq_ok] at h
    obtain ⟨⟨k, t⟩, hcall, h⟩ := h
    simp only [meterCall, bind_eq_ok, orRevert_eq_ok, pure_eq_ok, Prod.mk.injEq,
      checkedAdd_eq_some] at hcall
    obtain ⟨k', ⟨hlt, rfl⟩, u, hu, rfl, rfl⟩ := hcall
    obtain ⟨hm, hm256, hdata⟩ := ih h hlt
    refine ⟨?_, hm256, hdata.trans (meterToken_keyData hu)⟩
    rw [hm, nativeValue_cons, Nat.add_assoc]

/-- What an execution does to the key's own data. -/
theorem keyData_of_updateLimitsPreExec {timestamp : Uint256} {calls : List Call}
    (hid : HasId E account key id s)
    (h : updateLimitsPreExec E timestamp account s calls key = .ok s') :
    ∃ d, nativeValue calls < 2 ^ 256 ∧
      meterNative timestamp account key (nativeValue calls)
        (s.sessionKeyDataOf E.keccak account id) = .ok d ∧
      s'.sessionKeyDataOf E.keccak account id = d.finishGasReset timestamp := by
  rw [updateLimitsPreExec_eq_ok, hid.keyId] at h
  obtain ⟨n, t, d, hcalls, hnative, rfl⟩ := h
  obtain ⟨hn, hlt, hdata⟩ := native_of_meterCalls hcalls (by decide)
  rw [Nat.zero_add] at hn
  have hread : t.sessionKeyDataOf E.keccak account id = s.sessionKeyDataOf E.keccak account id :=
    congrFun hdata _
  refine ⟨d, hn ▸ hlt, ?_, ?_⟩
  · rw [← hn, ← hread]
    exact hnative
  · have hperm := t.permissionsOf_setKeyData E.keccak account account id id
      (d.finishGasReset timestamp)
    rw [if_pos ⟨rfl, rfl⟩] at hperm
    exact congrArg Permissions.key hperm

/-! ### Runs -/

/-- The rule for what the calls that went through do to a key that none of them
reconfigures. -/
theorem keyRun_invariant {Ok : Tx → Prop}
    {P : State W S → List (Evm.Call (State W S) Tx) → Prop}
    (hstep : ∀ s tx s' h, HasId E account key id s → KeyStep E account key id s tx s' → Ok tx →
      (∀ c ∈ h, c.act.timestamp.toNat ≤ tx.timestamp.toNat) → P s h →
      P s' (h ++ [⟨s, tx, s'⟩]))
    {s₀ : State W S} (hr₀ : Registry E account s₀) (hid₀ : HasId E account key id s₀)
    (hinv₀ : P s₀ []) {txs : List Tx} (hok : ∀ tx ∈ txs, Ok tx)
    (hkeep : ∀ tx ∈ txs, tx.reconfigures account key = false)
    (horder : txs.Pairwise (fun a b => a.timestamp.toNat ≤ b.timestamp.toNat)) :
    HasId E account key id (afterAttempts (entryPointStep E) s₀ txs) ∧
      P (afterAttempts (entryPointStep E) s₀ txs) (attempts (entryPointStep E) s₀ txs) := by
  have hacts := Run.attempts_sublist (entryPointStep E) s₀ txs
  have hok' := fun tx htx => hok tx (hacts.subset htx)
  have hkeep' := fun tx htx => hkeep tx (hacts.subset htx)
  have horder' := horder.sublist hacts
  suffices hall : ∀ h s, Run (entryPointStep E) s₀ h s → (∀ tx ∈ h.map Evm.Call.act, Ok tx) →
      (∀ tx ∈ h.map Evm.Call.act, tx.reconfigures account key = false) →
      (h.map Evm.Call.act).Pairwise (fun a b => a.timestamp.toNat ≤ b.timestamp.toNat) →
      Registry E account s ∧ HasId E account key id s ∧ P s h from
    (hall _ _ (Run.of_attempts _ s₀ txs) hok' hkeep' horder').2
  intro h s hrun hok hkeep horder
  induction hrun with
  | nil => exact ⟨hr₀, hid₀, hinv₀⟩
  | @snoc h s s' tx hrun hs ih =>
    simp only [List.map_append, List.map_cons, List.map_nil] at hok hkeep horder
    obtain ⟨hbefore, -, hlast⟩ := List.pairwise_append.mp horder
    obtain ⟨hr, hid, hinv⟩ := ih (fun a ha => hok a (List.mem_append_left _ ha))
      (fun a ha => hkeep a (List.mem_append_left _ ha)) hbefore
    obtain ⟨hid', hkey⟩ := keyStep_of_step hr hid (hkeep tx (by simp)) hs
    refine ⟨hr.exec (exec_of_entryPointStep hs), hid', hstep s tx s' h hid hkey (hok tx (by simp))
      ?_ hinv⟩
    intro c hc
    exact hlast c.act (List.mem_map_of_mem hc) tx (List.mem_singleton_self tx)

/-- The rule for a ledger that the calls write: the invariant holds at the end and
before every call. -/
theorem ledger_invariant {record : Evm.Call (State W S) Tx → List Entry} {Ok : Tx → Prop}
    {P : State W S → List Entry → Prop}
    (htime : ∀ c, ∀ e ∈ record c, e.time = c.act.timestamp.toNat)
    (hstep : ∀ s tx s' l, HasId E account key id s → KeyStep E account key id s tx s' → Ok tx →
      (∀ e ∈ l, e.time ≤ tx.timestamp.toNat) → P s l → P s' (l ++ record ⟨s, tx, s'⟩))
    {s₀ : State W S} (hr₀ : Registry E account s₀) (hid₀ : HasId E account key id s₀)
    (hinv₀ : P s₀ []) {txs : List Tx} (hok : ∀ tx ∈ txs, Ok tx)
    (hkeep : ∀ tx ∈ txs, tx.reconfigures account key = false)
    (horder : txs.Pairwise (fun a b => a.timestamp.toNat ≤ b.timestamp.toNat)) :
    HasId E account key id (afterAttempts (entryPointStep E) s₀ txs) ∧
      P (afterAttempts (entryPointStep E) s₀ txs)
        ((attempts (entryPointStep E) s₀ txs).flatMap record) ∧
      ∀ c ∈ attempts (entryPointStep E) s₀ txs, HasId E account key id c.pre ∧
        ∃ l, P c.pre l := by
  refine keyRun_invariant (P := fun t h => P t (h.flatMap record) ∧
    ∀ c ∈ h, HasId E account key id c.pre ∧ ∃ l, P c.pre l) ?_ hr₀ hid₀ ⟨hinv₀, by simp⟩ hok
    hkeep horder
  rintro s tx s' h hid hkey hok hbefore ⟨hinv, hcalls⟩
  constructor
  · rw [List.flatMap_append, List.flatMap_singleton]
    refine hstep s tx s' _ hid hkey hok ?_ hinv
    intro e he
    obtain ⟨c, hc, hec⟩ := List.mem_flatMap.mp he
    rw [htime c e hec]
    exact hbefore c hc
  · intro c hc
    rcases List.mem_append.mp hc with hc | hc
    · exact hcalls c hc
    · rw [List.mem_singleton.mp hc]
      exact ⟨hid, _, hinv⟩

end Bufi.Session
