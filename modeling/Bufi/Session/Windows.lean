import Bufi.Session.NativeAgreement

/-!
# The ends of windows

A window ends at `lastUsed + refreshInterval`, a checked `uint48` addition that
validation and execution both make.  An update may set any interval, and
`_updateSpendLimits` does not ask whether the sum fits: with an interval close to
`2 ^ 48` every later use of the limit panics.

`BoundedWindow` is what keeps the additions safe at block times below `2 ^ 40`: the
last use is below `2 ^ 40`, and the interval leaves as much room.  Every call keeps
it, of every limit of every key, if the updates it makes leave that room
(`BoundedState.exec`).  A larger interval does not fit at every such time.
-/

namespace Bufi.Session

open Bufi.Evm

/-! ### One limit -/

/-- The window ends below `2 ^ 48`, also if a block below `2 ^ 40` starts it anew. -/
structure BoundedWindow (t : SpendLimitTimeInfo) : Prop where
  lastUsed : t.lastUsed.toNat < 2 ^ 40
  refreshInterval : t.refreshInterval.toNat + 2 ^ 40 ≤ 2 ^ 48

theorem BoundedWindow.fits {t : SpendLimitTimeInfo} (h : BoundedWindow t) : WindowFits t := by
  have hlast := h.lastUsed
  have hinterval := h.refreshInterval
  unfold WindowFits
  omega

theorem toNat_toUint48_of_lt {timestamp : Uint256} (h : timestamp.toNat < 2 ^ 40) :
    (toUint48 timestamp).toNat < 2 ^ 40 := by
  rw [toNat_toUint48 (by omega)]
  exact h

theorem BoundedWindow.restart {t : SpendLimitTimeInfo} (h : BoundedWindow t) {timestamp : Uint256}
    (htime : timestamp.toNat < 2 ^ 40) :
    BoundedWindow { t with lastUsed := toUint48 timestamp } :=
  ⟨toNat_toUint48_of_lt htime, h.refreshInterval⟩

theorem boundedWindow_updateSpendLimits {b : Budget} (h : BoundedWindow b.1)
    {timestamp newLimit : Uint256} {newRefreshInterval : Uint48}
    (htime : timestamp.toNat < 2 ^ 40)
    (hshort : newLimit ≠ BitVec.allOnes 256 → newRefreshInterval.toNat + 2 ^ 40 ≤ 2 ^ 48) :
    BoundedWindow (updateSpendLimits timestamp newLimit newRefreshInterval b).2.1 := by
  unfold updateSpendLimits
  split
  · exact h
  · rename_i hlimit
    refine ⟨?_, hshort hlimit⟩
    show (if newRefreshInterval = 0 then 0 else toUint48 timestamp).toNat < 2 ^ 40
    split
    · decide
    · exact toNat_toUint48_of_lt htime

theorem boundedWindow_runtimeUpdate {b b' : Budget} (h : BoundedWindow b.1)
    {timestamp newUsage : Uint256} (htime : timestamp.toNat < 2 ^ 40)
    (hrun : runtimeUpdateSpendLimitUsage timestamp newUsage b = some (true, b')) :
    BoundedWindow b'.1 := by
  have hcharge := charge_of_runtimeUpdate hrun
  refine ⟨?_, ?_⟩
  · rw [hcharge.lastUsed]
    split
    · exact h.lastUsed
    · exact toNat_toUint48_of_lt htime
  · rw [hcharge.refreshInterval]
    exact h.refreshInterval

/-! ### The additions -/

theorem checkSpendLimitUsage_ne_none {b : Budget} (h : WindowFits b.1) (newUsage : Uint256) :
    checkSpendLimitUsage newUsage b ≠ none := by
  unfold checkSpendLimitUsage
  rw [checkedAdd48_of_fits h]
  simp only
  split_ifs <;> simp

theorem runtimeUpdate_ne_none {b : Budget} (h : WindowFits b.1) (timestamp newUsage : Uint256) :
    runtimeUpdateSpendLimitUsage timestamp newUsage b ≠ none := by
  rw [runtimeUpdateSpendLimitUsage, windowActive_of_fits h]
  simp only [Option.bind_eq_bind, Option.bind_some]
  split_ifs <;> simp

theorem checkGasUsage_ne_none {d : SessionKeyData} (h : WindowFits d.gasLimitTimeInfo)
    (newUsage : Uint256) : checkAndUpdateGasLimitUsage newUsage d ≠ none := by
  simp only [checkAndUpdateGasLimitUsage, checkedAdd48_of_fits h]
  split_ifs <;> simp

/-! ### The limits of a key -/

/-- Every limit that is enabled has a window that ends below `2 ^ 48`. -/
structure WindowsFit (p : Permissions) : Prop where
  native : p.key.nativeTokenSpendLimitBypassed = false →
    WindowFits p.key.nativeTokenSpendLimitTimeInfo
  gas : p.key.hasGasLimit = true → WindowFits p.key.gasLimitTimeInfo
  token : ∀ c, (p.contracts c).isERC20WithSpendLimit = true →
    WindowFits (p.contracts c).erc20SpendLimitTimeInfo

/-- No addition of an enabled limit panics. -/
structure AdditionsSucceed (p : Permissions) : Prop where
  native : p.key.nativeTokenSpendLimitBypassed = false → ∀ newUsage timestamp,
    checkSpendLimitUsage newUsage p.key.nativeBudget ≠ none ∧
      runtimeUpdateSpendLimitUsage timestamp newUsage p.key.nativeBudget ≠ none
  gas : p.key.hasGasLimit = true → ∀ newUsage, checkAndUpdateGasLimitUsage newUsage p.key ≠ none
  token : ∀ c, (p.contracts c).isERC20WithSpendLimit = true → ∀ newUsage timestamp,
    runtimeUpdateSpendLimitUsage timestamp newUsage (p.contracts c).budget ≠ none

theorem WindowsFit.additions {p : Permissions} (h : WindowsFit p) : AdditionsSucceed p where
  native hlimit newUsage timestamp :=
    ⟨checkSpendLimitUsage_ne_none (b := p.key.nativeBudget) (h.native hlimit) newUsage,
      runtimeUpdate_ne_none (b := p.key.nativeBudget) (h.native hlimit) timestamp newUsage⟩
  gas hlimit newUsage := checkGasUsage_ne_none (h.gas hlimit) newUsage
  token c hlimit newUsage timestamp :=
    runtimeUpdate_ne_none (b := (p.contracts c).budget) (h.token c hlimit) timestamp newUsage

/-- All windows of a key, enabled or not, are bounded. -/
structure BoundedWindows (p : Permissions) : Prop where
  native : BoundedWindow p.key.nativeTokenSpendLimitTimeInfo
  gas : BoundedWindow p.key.gasLimitTimeInfo
  token : ∀ c, BoundedWindow (p.contracts c).erc20SpendLimitTimeInfo

namespace BoundedWindows

variable {p q : Permissions}

theorem fits (h : BoundedWindows p) : WindowsFit p :=
  ⟨fun _ => h.native.fits, fun _ => h.gas.fits, fun c _ => (h.token c).fits⟩

theorem default : BoundedWindows .default :=
  have hzero : BoundedWindow ⟨0, 0⟩ := ⟨by decide, by decide⟩
  ⟨hzero, hzero, fun _ => hzero⟩

/-- A write to the key's own data. -/
theorem mapKey (h : BoundedWindows p) {f : SessionKeyData → SessionKeyData}
    (hnative : BoundedWindow (f p.key).nativeTokenSpendLimitTimeInfo)
    (hgas : BoundedWindow (f p.key).gasLimitTimeInfo) : BoundedWindows (p.mapKey f) :=
  ⟨hnative, hgas, h.token⟩

theorem mapContract (h : BoundedWindows p) {c : Address} {f : ContractData → ContractData}
    (hf : BoundedWindow (f (p.contracts c)).erc20SpendLimitTimeInfo) :
    BoundedWindows (p.mapContract c f) := by
  refine ⟨h.native, h.gas, ?_⟩
  intro x
  rw [Permissions.contracts_mapContract]
  split
  · exact hf
  · exact h.token x

end BoundedWindows

/-! ### Updates -/

/-- The interval that an update sets for an enabled limit. -/
def PermissionsUpdate.interval? : PermissionsUpdate → Option Uint48
  | .setNativeTokenSpendLimit spendLimit refreshInterval =>
    if spendLimit = BitVec.allOnes 256 then none else some refreshInterval
  | .setERC20SpendLimit _ spendLimit refreshInterval =>
    if spendLimit = BitVec.allOnes 256 then none else some refreshInterval
  | .setGasSpendLimit spendLimit refreshInterval =>
    if spendLimit = BitVec.allOnes 256 then none else some refreshInterval
  | _ => none

/-- The interval leaves room for every block time below `2 ^ 40`. -/
def ShortInterval (u : Bytes) : Prop :=
  ∀ refreshInterval ∈ (decodeUpdate u).toOption.bind PermissionsUpdate.interval?,
    refreshInterval.toNat + 2 ^ 40 ≤ 2 ^ 48

instance (u : Bytes) : Decidable (ShortInterval u) :=
  Option.decidableForallMem ((decodeUpdate u).toOption.bind PermissionsUpdate.interval?)

/-- The updates a call brings. -/
def Tx.updates (tx : Tx) : List Bytes :=
  match tx.action with
  | .onInstall data => (decodeInstall data).elim [] (fun args => args.2.2.flatten)
  | .addSessionKey _ _ permissionUpdates => permissionUpdates
  | .updateKeyPermissions _ updates => updates
  | _ => []

theorem interval_of_ne {spendLimit : Uint256} {refreshInterval : Uint48}
    (h : ∀ r, (if spendLimit = BitVec.allOnes 256 then none else some refreshInterval) = some r →
      r.toNat + 2 ^ 40 ≤ 2 ^ 48) (hne : spendLimit ≠ BitVec.allOnes 256) :
    refreshInterval.toNat + 2 ^ 40 ≤ 2 ^ 48 :=
  h refreshInterval (if_neg hne)

theorem BoundedWindows.perform {p q : Permissions} (h : BoundedWindows p) {timestamp : Uint256}
    {u : PermissionsUpdate} (htime : timestamp.toNat < 2 ^ 40)
    (hshort : ∀ r, u.interval? = some r → r.toNat + 2 ^ 40 ≤ 2 ^ 48)
    (hq : p.perform timestamp u = .ok q) : BoundedWindows q := by
  cases u with
  | setAccessListType t =>
    obtain rfl := pure_eq_ok.mp hq
    exact h.mapKey h.native h.gas
  | updateAccessListAddressEntry c isOnList checkSelectors =>
    obtain rfl := pure_eq_ok.mp hq
    exact h.mapContract (h.token c)
  | updateAccessListFunctionEntry c selector isOnList =>
    obtain rfl := pure_eq_ok.mp hq
    exact ⟨h.native, h.gas, h.token⟩
  | updateTimeRange validAfter validUntil =>
    obtain rfl := pure_eq_ok.mp hq
    exact h.mapKey h.native h.gas
  | setNativeTokenSpendLimit spendLimit refreshInterval =>
    obtain rfl := pure_eq_ok.mp hq
    exact h.mapKey (boundedWindow_updateSpendLimits (b := p.key.nativeBudget) h.native htime
      (interval_of_ne hshort)) h.gas
  | setERC20SpendLimit token spendLimit refreshInterval =>
    simp only [Permissions.perform, bind_eq_ok, require_eq_ok, exists_const, pure_eq_ok] at hq
    obtain ⟨-, rfl⟩ := hq
    exact h.mapContract (boundedWindow_updateSpendLimits (b := (p.contracts token).budget)
      (h.token token) htime (interval_of_ne hshort))
  | setGasSpendLimit spendLimit refreshInterval =>
    obtain rfl := pure_eq_ok.mp hq
    exact h.mapKey h.native (boundedWindow_updateSpendLimits (b := p.key.gasBudget) h.gas htime
      (interval_of_ne hshort))
  | setRequiredPaymaster requiredPaymaster =>
    obtain rfl := pure_eq_ok.mp hq
    refine h.mapKey ?_ ?_
    · unfold SessionKeyData.setRequiredPaymaster
      split
      · exact h.native
      · exact h.native
    · unfold SessionKeyData.setRequiredPaymaster
      split
      · exact h.gas
      · exact h.gas

theorem BoundedWindows.updateAll {p q : Permissions} (h : BoundedWindows p) {timestamp : Uint256}
    {updates : List Bytes} (htime : timestamp.toNat < 2 ^ 40)
    (hshort : ∀ u ∈ updates, ShortInterval u) (hq : p.updateAll timestamp updates = .ok q) :
    BoundedWindows q := by
  refine foldlM_invariant_mem (P := BoundedWindows) hq h ?_
  intro u hu p p' hp hp'
  rw [Permissions.update, bind_eq_ok] at hp'
  obtain ⟨update, hdecode, hperform⟩ := hp'
  refine hp.perform htime ?_ hperform
  intro r hr
  refine hshort u hu r ?_
  rw [hdecode]
  exact hr

/-! ### Calls -/

variable {W S : Type}

/-- All windows of all keys of all accounts are bounded. -/
def BoundedState (K : Keccak W) (s : State W S) : Prop :=
  ∀ account id, BoundedWindows (s.permissionsOf K account id)

theorem boundedState_initial (K : Keccak W) (L : LinkedSet S) : BoundedState K (State.initial L) :=
  fun _ _ => .default

theorem BoundedState.write {K : Keccak W} {account : Address} {id : Bytes32} {s s' : State W S}
    (h : BoundedState K s) (hwrite : KeyWrite K account id s s')
    (hid : BoundedWindows (s'.permissionsOf K account id)) : BoundedState K s' := by
  intro a i
  by_cases heq : a = account ∧ i = id
  · rw [heq.1, heq.2]
    exact hid
  · rw [hwrite.permissions a i heq]
    exact h a i

/-- No key of the account has changed its permissions, and no other account has changed. -/
theorem BoundedState.same {K : Keccak W} {account : Address} {s s' : State W S}
    (h : BoundedState K s)
    (hperm : ∀ i, s'.permissionsOf K account i = s.permissionsOf K account i)
    (hothers : ∀ a, a ≠ account → SameAccount K a s s') : BoundedState K s' := by
  intro a i
  by_cases heq : a = account
  · rw [heq, hperm i]
    exact h account i
  · rw [(hothers a heq).permissions i]
    exact h a i

/-- The check of the gas limit writes no time. -/
theorem times_of_checkGas {lib : UserOperationLib} {userOp : PackedUserOperation}
    {d d' : SessionKeyData} {ok : Bool} {validAfter : Uint48}
    (h : checkGas lib userOp d = .ok (ok, validAfter, d')) :
    d'.gasLimitTimeInfo = d.gasLimitTimeInfo ∧
      d'.nativeTokenSpendLimitTimeInfo = d.nativeTokenSpendLimitTimeInfo := by
  rw [checkGas] at h
  split at h
  · simp only [bind_eq_ok, orRevert_eq_ok] at h
    obtain ⟨cost, -, hcheck⟩ := h
    simp only [checkAndUpdateGasLimitUsage] at hcheck
    split_ifs at hcheck <;> simp only [Option.some.injEq, Prod.mk.injEq,
      Option.map_eq_some_iff] at hcheck
    · exact hcheck.2.2 ▸ ⟨rfl, rfl⟩
    · exact hcheck.2.2 ▸ ⟨rfl, rfl⟩
    · exact hcheck.2.2 ▸ ⟨rfl, rfl⟩
    · obtain ⟨_, -, -, -, rfl⟩ := hcheck
      exact ⟨rfl, rfl⟩
    · obtain ⟨_, -, -, -, rfl⟩ := hcheck
      exact ⟨rfl, rfl⟩
    · obtain ⟨_, -, -, -, rfl⟩ := hcheck
      exact ⟨rfl, rfl⟩
    · exact hcheck.2.2 ▸ ⟨rfl, rfl⟩
  · rw [pure_eq_ok, Prod.mk.injEq, Prod.mk.injEq] at h
    rw [h.2.2]
    exact ⟨rfl, rfl⟩

theorem boundedWindow_finishGasReset {d : SessionKeyData} {timestamp : Uint256}
    (h : BoundedWindow d.gasLimitTimeInfo) (htime : timestamp.toNat < 2 ^ 40) :
    BoundedWindow (d.finishGasReset timestamp).gasLimitTimeInfo := by
  unfold SessionKeyData.finishGasReset
  split
  · exact h.restart htime
  · exact h

theorem boundedWindow_meterNative {account key : Address} {d d' : SessionKeyData}
    {timestamp : Uint256} {n : ℕ} (h : meterNative timestamp account key n d = .ok d')
    (hnative : BoundedWindow d.nativeTokenSpendLimitTimeInfo) (htime : timestamp.toNat < 2 ^ 40) :
    BoundedWindow d'.nativeTokenSpendLimitTimeInfo ∧ d'.gasLimitTimeInfo = d.gasLimitTimeInfo := by
  rw [meterNative] at h
  split at h
  · rw [pure_eq_ok.mp h]
    exact ⟨hnative, rfl⟩
  · simp only [bind_eq_ok, orRevert_eq_ok, require_eq_ok, exists_const, pure_eq_ok] at h
    obtain ⟨⟨ok, b⟩, hb, rfl, rfl⟩ := h
    exact ⟨boundedWindow_runtimeUpdate (b := d.nativeBudget) hnative htime hb, rfl⟩

variable [DecidableEq W] {E : Env W S} {s s' : State W S} {account : Address} {timestamp : Uint256}

namespace BoundedState

theorem setKeyData (h : BoundedState E.keccak s) {id : Bytes32} {d : SessionKeyData}
    (hnative : BoundedWindow d.nativeTokenSpendLimitTimeInfo)
    (hgas : BoundedWindow d.gasLimitTimeInfo) :
    BoundedState E.keccak (s.setKeyData E.keccak account id d) := by
  refine h.write (.setKeyData E.keccak account id s d) ?_
  rw [State.permissionsOf_setKeyData, if_pos ⟨rfl, rfl⟩]
  exact (h account id).mapKey hnative hgas

omit [DecidableEq W] in
theorem keyAdded (h : BoundedState E.keccak s) {key : Address} {updates : List Bytes}
    (hadd : KeyAdded E timestamp account key updates s s') (htime : timestamp.toNat < 2 ^ 40)
    (hshort : ∀ u ∈ updates, ShortInterval u) : BoundedState E.keccak s' := by
  intro a i
  by_cases ha : a = account
  · subst ha
    by_cases hi : i = s.keyIdCounter a + 1
    · rw [hi]
      exact (h a _).updateAll htime hshort hadd.updated
    · rw [hadd.permissions i hi]
      exact h a i
  · rw [(hadd.others a ha).permissions i]
    exact h a i

theorem meterToken {key : Address} {id : Bytes32} {call : Call} (h : BoundedState E.keccak s)
    (htime : timestamp.toNat < 2 ^ 40)
    (hmeter : Session.meterToken E timestamp account key id s call = .ok s') :
    BoundedState E.keccak s' := by
  simp only [Session.meterToken] at hmeter
  split at hmeter
  · simp only [bind_eq_ok, orRevert_eq_ok, require_eq_ok, exists_const, pure_eq_ok] at hmeter
    obtain ⟨⟨ok, b⟩, hb, rfl, rfl⟩ := hmeter
    refine h.write (.setContractData _ _ _ _ _ _) ?_
    rw [State.permissionsOf_setContractData, if_pos ⟨rfl, rfl⟩]
    exact (h account id).mapContract (boundedWindow_runtimeUpdate
      (b := (s.contractDataOf E.keccak account id call.target).budget)
      ((h account id).token call.target) htime hb)
  · rw [pure_eq_ok.mp hmeter]
    exact h

theorem meterCall {key : Address} {id : Bytes32} {call : Call} {acc acc' : ℕ × State W S}
    (h : BoundedState E.keccak acc.2) (htime : timestamp.toNat < 2 ^ 40)
    (hmeter : Session.meterCall E timestamp account key id acc call = .ok acc') :
    BoundedState E.keccak acc'.2 := by
  simp only [Session.meterCall, bind_eq_ok, orRevert_eq_ok, pure_eq_ok] at hmeter
  obtain ⟨total, -, t, ht, rfl⟩ := hmeter
  exact h.meterToken htime ht

theorem updateLimitsPreExec {key : Address} {calls : List Call} (h : BoundedState E.keccak s)
    (htime : timestamp.toNat < 2 ^ 40)
    (hpre : Session.updateLimitsPreExec E timestamp account s calls key = .ok s') :
    BoundedState E.keccak s' := by
  rw [updateLimitsPreExec_eq_ok] at hpre
  obtain ⟨n, t, d, hcalls, hnative, rfl⟩ := hpre
  have ht : BoundedState E.keccak t := foldlM_invariant (P := fun acc => BoundedState E.keccak acc.2)
    hcalls h (fun acc call acc' hacc hcall => hacc.meterCall htime hcall)
  have hkey := ht account (s.sessionKeyIdOf E.keccak account key)
  obtain ⟨hn, hg⟩ := boundedWindow_meterNative hnative hkey.native htime
  refine ht.setKeyData ?_ (boundedWindow_finishGasReset (hg ▸ hkey.gas) htime)
  rw [show (d.finishGasReset timestamp).nativeTokenSpendLimitTimeInfo =
    d.nativeTokenSpendLimitTimeInfo from
      congrArg Prod.fst (native_of_finishGasReset d timestamp).2]
  exact hn

/-- **Every call keeps the windows bounded** whose updates leave room. -/
theorem exec {tx : Tx} (h : BoundedState E.keccak s) (htime : tx.timestamp.toNat < 2 ^ 40)
    (hshort : ∀ u ∈ tx.updates, ShortInterval u) (hexec : Session.exec E s tx = .ok s') :
    BoundedState E.keccak s' := by
  obtain ⟨sender, timestamp, action⟩ := tx
  cases action with
  | onInstall data =>
    obtain ⟨keys, tags, updates, hdecode, -, -, hadds⟩ := onInstall_eq_ok hexec
    refine foldlM_invariant_mem (P := BoundedState E.keccak) hadds h ?_
    intro entry hentry t t' ht hadd
    refine ht.keyAdded (addEntry_eq_ok hadd) htime ?_
    intro u hu
    have hmem : entry.2.2 ∈ updates := (List.of_mem_zip (List.of_mem_zip hentry).2).2
    refine hshort u ?_
    simp only [Tx.updates, hdecode]
    exact List.mem_flatten.mpr ⟨entry.2.2, hmem, hu⟩
  | onUninstall =>
    obtain rfl := pure_eq_ok.mp hexec
    have huninstalled := uninstalled_onUninstall E sender s
    exact h.same huninstalled.permissions huninstalled.others
  | addSessionKey key tag updates =>
    change addSessionKey E timestamp sender s key tag updates = .ok s' at hexec
    exact h.keyAdded (addSessionKey_eq_ok hexec) htime hshort
  | removeSessionKey key predecessor =>
    have hremoved := removeSessionKey_eq_ok hexec
    exact h.same hremoved.permissions hremoved.others
  | rotateSessionKey oldKey predecessor newKey =>
    have hrotated := rotateSessionKey_eq_ok hexec
    exact h.same hrotated.permissions hrotated.others
  | updateKeyPermissions key updates =>
    obtain ⟨-, hwrite, hupdates⟩ := updateKeyPermissions_eq_ok hexec
    exact h.write hwrite ((h sender _).updateAll htime hshort hupdates)
  | userOpValidationFunction functionId userOp userOpHash =>
    obtain ⟨⟨v, t⟩, hvalidation, rfl⟩ := map_eq_ok.mp hexec
    rw [userOpValidationFunction] at hvalidation
    split at hvalidation
    · simp only [bind_eq_ok, orRevert_eq_ok, require_eq_ok, exists_const, pure_eq_ok,
        Prod.exists, Prod.mk.injEq] at hvalidation
      obtain ⟨calls, key, -, signer, -, -, w, u, hcheck, -, -, rfl⟩ := hvalidation
      obtain ⟨ok, validAfter, d, hgas, rfl⟩ := checkUserOpPermissions_eq_ok hcheck
      obtain ⟨hg, hn⟩ := times_of_checkGas hgas
      have hkey := h sender (s.sessionKeyIdOf E.keccak sender key)
      exact h.setKeyData (hn ▸ hkey.native) (hg ▸ hkey.gas)
    · exact absurd hvalidation (by simp [throw, throwThe, MonadExceptOf.throw])
  | executeWithSessionKey calls key callsReturn =>
    exact h.updateLimitsPreExec htime (executeWithSessionKey_eq_ok.mp hexec).1
  | resetSessionKeyGasLimitTimestamp account key =>
    simp only [Session.exec, resetSessionKeyGasLimitTimestamp, bind_eq_ok, pure_eq_ok] at hexec
    obtain ⟨id, -, rfl⟩ := hexec
    have hkey := h account id
    refine h.setKeyData ?_ (boundedWindow_finishGasReset hkey.gas htime)
    rw [show ((s.sessionKeyDataOf E.keccak account id).finishGasReset
        timestamp).nativeTokenSpendLimitTimeInfo =
      (s.sessionKeyDataOf E.keccak account id).nativeTokenSpendLimitTimeInfo from
        congrArg Prod.fst (native_of_finishGasReset _ timestamp).2]
    exact hkey.native

end BoundedState

theorem boundedState_of_run {h : List (Evm.Call (State W S) Tx)}
    (hrun : Run (step E) (State.initial E.set) h s)
    (hok : ∀ c ∈ h, c.act.timestamp.toNat < 2 ^ 40 ∧ ∀ u ∈ c.act.updates, ShortInterval u) :
    BoundedState E.keccak s := by
  induction hrun with
  | nil => exact boundedState_initial _ _
  | @snoc h s s' tx hrun hs ih =>
    have hlast := hok ⟨s, tx, s'⟩ (List.mem_append_right _ List.mem_cons_self)
    exact (ih (fun c hc => hok c (List.mem_append_left _ hc))).exec hlast.1 hlast.2
      (toOption_eq_some.mp hs)

/-! ### Panics -/

/-- The loop over the calls panics only if the values do not add up. -/
theorem meterCalls_ne_panic {key : Address} {id : Bytes32} {calls : List Call} {n : ℕ}
    (h : BoundedState E.keccak s) (htime : timestamp.toNat < 2 ^ 40)
    (hsum : calls.foldlM (fun total call => checkedAdd total call.value.toNat) n ≠ none) :
    calls.foldlM (meterCall E timestamp account key id) (n, s) ≠ .error .panic := by
  induction calls generalizing n s with
  | nil => exact pure_ne_error
  | cons call calls ih =>
    rw [List.foldlM_cons, Option.bind_eq_bind] at hsum
    rw [List.foldlM_cons]
    intro herr
    rcases bind_eq_error.mp herr with hcall | ⟨⟨m, t⟩, hcall, hrest⟩
    · simp only [meterCall, bind_eq_error, orRevert_eq_error] at hcall
      rcases hcall with ⟨hnone, -⟩ | ⟨total, -, htoken | ⟨t, -, hpure⟩⟩
      · rw [hnone] at hsum
        exact hsum rfl
      · simp only [meterToken] at htoken
        split at htoken
        · simp only [bind_eq_error, orRevert_eq_error, require_eq_error] at htoken
          rcases htoken with ⟨hnone, -⟩ | ⟨r, -, ⟨-, hne⟩ | ⟨u, -, hpure⟩⟩
          · exact runtimeUpdate_ne_none
              (b := (s.contractDataOf E.keccak account id call.target).budget)
              ((h account id).token call.target).fits _ _ hnone
          · cases hne
          · exact pure_ne_error hpure
        · exact pure_ne_error htoken
      · exact pure_ne_error hpure
    · have ht := BoundedState.meterCall (show BoundedState E.keccak (n, s).2 from h) htime hcall
      simp only [meterCall, bind_eq_ok, orRevert_eq_ok, pure_eq_ok, Prod.mk.injEq] at hcall
      obtain ⟨total, htotal, u, -, rfl, -⟩ := hcall
      rw [htotal, Option.bind_some] at hsum
      exact ih ht hsum hrest

theorem meterNative_ne_panic {key : Address} {n : ℕ} {d : SessionKeyData}
    (h : WindowFits d.nativeTokenSpendLimitTimeInfo) :
    meterNative timestamp account key n d ≠ .error .panic := by
  intro herr
  rw [meterNative] at herr
  split at herr
  · exact pure_ne_error herr
  · simp only [bind_eq_error, orRevert_eq_error, require_eq_error] at herr
    rcases herr with ⟨hnone, -⟩ | ⟨r, -, ⟨-, hne⟩ | ⟨u, -, hpure⟩⟩
    · exact runtimeUpdate_ne_none (b := d.nativeBudget) h _ _ hnone
    · cases hne
    · exact pure_ne_error hpure

theorem execution_ne_panic {key : Address} {calls : List Call} (h : BoundedState E.keccak s)
    (htime : timestamp.toNat < 2 ^ 40) (hsum : sumValues calls ≠ none) :
    updateLimitsPreExec E timestamp account s calls key ≠ .error .panic := by
  intro herr
  simp only [updateLimitsPreExec, bind_eq_error] at herr
  rcases herr with hcalls | ⟨⟨n, t⟩, hcalls, hnative | ⟨d, -, hpure⟩⟩
  · exact meterCalls_ne_panic h htime hsum hcalls
  · have ht : BoundedState E.keccak t :=
      foldlM_invariant (P := fun acc => BoundedState E.keccak acc.2) hcalls h
        (fun acc call acc' hacc hcall => hacc.meterCall htime hcall)
    exact meterNative_ne_panic (ht account _).native.fits hnative
  · exact pure_ne_error hpure

theorem validation_ne_panic {key : Address} {userOp : PackedUserOperation} {calls : List Call}
    (h : BoundedState E.keccak s) (hsum : sumValues calls ≠ none)
    (hcost : getMaxGasCost E.lib userOp ≠ .error .panic) :
    checkUserOpPermissions E.keccak E.lib s account userOp calls key ≠ .error .panic := by
  have hkey := h account (s.sessionKeyIdOf E.keccak account key)
  intro herr
  simp only [checkUserOpPermissions, bind_eq_error, orRevert_eq_error] at herr
  rcases herr with ⟨hnone, -⟩ | ⟨spend, -, ⟨hnone, -⟩ | ⟨r, -, hgas | ⟨_, -, hpure⟩⟩⟩
  · exact hsum hnone
  · rw [checkNativeSpend] at hnone
    split at hnone
    · cases hnone
    · exact checkSpendLimitUsage_ne_none (b := (s.permissionsOf E.keccak account _).key.nativeBudget)
        hkey.native.fits _ hnone
  · rw [checkGas] at hgas
    split at hgas
    · simp only [bind_eq_error, orRevert_eq_error] at hgas
      rcases hgas with hcost' | ⟨cost, -, hnone, -⟩
      · exact hcost hcost'
      · exact checkGasUsage_ne_none hkey.gas.fits _ hnone
    · exact pure_ne_error hgas
  · exact pure_ne_error hpure

/-! ### Every reachable state -/

/-- The windows of all limits that are enabled fit, their additions succeed, and an
operation panics only over amounts of its own. -/
structure WindowsKept (E : Env W S) (s : State W S) : Prop where
  fits : ∀ account id, WindowsFit (s.permissionsOf E.keccak account id)
  additions : ∀ account id, AdditionsSucceed (s.permissionsOf E.keccak account id)
  validation : ∀ account key userOp calls, sumValues calls ≠ none →
    getMaxGasCost E.lib userOp ≠ .error .panic →
    checkUserOpPermissions E.keccak E.lib s account userOp calls key ≠ .error .panic
  execution : ∀ account key timestamp calls, timestamp.toNat < 2 ^ 40 → sumValues calls ≠ none →
    updateLimitsPreExec E timestamp account s calls key ≠ .error .panic

theorem BoundedState.windowsKept (h : BoundedState E.keccak s) : WindowsKept E s where
  fits account id := (h account id).fits
  additions account id := (h account id).fits.additions
  validation _ _ _ _ hsum hcost := validation_ne_panic h hsum hcost
  execution _ _ _ _ htime hsum := execution_ne_panic h htime hsum

/-- The last second below `2 ^ 40`. -/
def lastSecond : Uint256 := 0xffffffffff

theorem not_windowsFit_of_long {p q : Permissions} {spendLimit : Uint256} {refreshInterval : Uint48}
    (hlimit : spendLimit ≠ BitVec.allOnes 256) (hlong : 2 ^ 48 < refreshInterval.toNat + 2 ^ 40)
    (hq : p.perform lastSecond (.setNativeTokenSpendLimit spendLimit refreshInterval) = .ok q) :
    ¬ WindowsFit q := by
  obtain rfl := pure_eq_ok.mp hq
  intro hfit
  have hne : refreshInterval ≠ 0 := by
    intro hzero
    rw [hzero] at hlong
    exact absurd hlong (by decide)
  have hnative := hfit.native
  simp only [Permissions.mapKey, SessionKeyData.setNativeTokenSpendLimit, updateSpendLimits,
    if_neg hlimit, if_neg hne, Bool.not_true, forall_const] at hnative
  have hlast : (toUint48 lastSecond).toNat = 2 ^ 40 - 1 := by decide
  simp only [WindowFits, SessionKeyData.withNativeBudget, hlast] at hnative
  omega

/-- **Windows fit as long as intervals leave room** for the time of a block: with
intervals of at most `2 ^ 48 - 2 ^ 40`, in every state of every run at block times
below `2 ^ 40`.  No larger interval does. -/
theorem windowsKept_of_short (E : Env W S) :
    (∀ h s, Run (step E) (State.initial E.set) h s →
      (∀ c ∈ h, c.act.timestamp.toNat < 2 ^ 40 ∧ ∀ u ∈ c.act.updates, ShortInterval u) →
      WindowsKept E s) ∧
    ∀ (refreshInterval : Uint48), 2 ^ 48 < refreshInterval.toNat + 2 ^ 40 →
      ∃ timestamp : Uint256, timestamp.toNat < 2 ^ 40 ∧ ∀ (p q : Permissions) (spendLimit : Uint256),
        spendLimit ≠ BitVec.allOnes 256 →
        p.perform timestamp (.setNativeTokenSpendLimit spendLimit refreshInterval) = .ok q →
        ¬ WindowsFit q := by
  constructor
  · intro h s hrun hok
    exact (boundedState_of_run hrun hok).windowsKept
  · intro refreshInterval hlong
    refine ⟨lastSecond, by decide, ?_⟩
    intro p q spendLimit hlimit hq
    exact not_windowsFit_of_long hlimit hlong hq

/-! ### Two agents -/

/-- Another limit, in windows of 500 seconds. -/
def halvedGrant : List Bytes := [encodeCall selSetERC20SpendLimit [token.toNat, 50, 500]]

/-- The agent spends in two windows, and its limit is changed between its batches. -/
def windowCalls : List Tx :=
  [walletTx (.addSessionKey agent 0 spendGrant),
    batchAt 1500 [transferCall 60, transferCall 30] true,
    batchAt 2000 [⟨nextAgent, 7, []⟩, transferCall 80] true,
    ⟨wallet, 2600, .updateKeyPermissions agent halvedGrant⟩, batchAt 3200 [transferCall 40] true]

theorem windowCalls_run :
    (windowCalls.foldlM (step agentEnv) (State.initial agentEnv.set)).map
      (fun s => (s.contractDataOf agentEnv.keccak wallet 1 token).erc20SpendLimit.limitUsed)
        = some 40 := by
  decide +kernel

theorem windowsKept_of_short_calls :
    ∃ h s, Run (step agentEnv) (State.initial agentEnv.set) h s ∧ h.map Evm.Call.act = windowCalls ∧
      (s.contractDataOf agentEnv.keccak wallet 1 token).erc20SpendLimit.limitUsed = 40 ∧
      WindowsKept agentEnv s := by
  obtain ⟨s, hs, hused⟩ := Option.map_eq_some_iff.mp windowCalls_run
  obtain ⟨h, hrun, hacts⟩ := Run.of_foldlM hs
  refine ⟨h, s, hrun, hacts, hused, (windowsKept_of_short agentEnv).1 h s hrun ?_⟩
  have hall : ∀ tx ∈ windowCalls,
      tx.timestamp.toNat < 2 ^ 40 ∧ ∀ u ∈ tx.updates, ShortInterval u := by
    decide +kernel
  intro c hc
  exact hall c.act (hacts ▸ List.mem_map_of_mem hc)

theorem fits_of_runtimeUpdate {newUsage : Uint256} {b : Budget} {r : Bool × Budget}
    (h : runtimeUpdateSpendLimitUsage timestamp newUsage b = some r) :
    b.1.refreshInterval = 0 ∨ WindowFits b.1 := by
  rw [runtimeUpdateSpendLimitUsage, Option.bind_eq_bind, Option.bind_eq_some_iff] at h
  obtain ⟨active, hactive, -⟩ := h
  rw [windowActive] at hactive
  split at hactive
  · rename_i hzero
    exact .inl hzero
  · rw [Option.map_eq_some_iff] at hactive
    obtain ⟨windowEnd, hadd, -⟩ := hactive
    rw [checkedAdd48, Option.ite_none_right_eq_some] at hadd
    exact .inr hadd.1

/-- 10 native tokens, in a window that does not end. -/
def endlessGrant : List Bytes := [encodeCall selSetNativeTokenSpendLimit [10, 2 ^ 48 - 1]]

theorem endlessGrant_runs :
    (step agentEnv (State.initial agentEnv.set)
      (walletTx (.addSessionKey agent 0 endlessGrant))).map (fun s =>
        (s.sessionKeyIdOf agentEnv.keccak wallet agent,
          nativeLimitOf agentEnv.keccak s wallet agent)) =
      some (1, (false, (⟨1000, 0xffffffffffff⟩, ⟨10, 0⟩))) := by
  decide +kernel

/-- **An interval that is accepted, and a key that is never used again**: the end of
its window does not fit, and every execution panics. -/
theorem windowsKept_not_endless :
    ∃ h s, Run (step agentEnv) (State.initial agentEnv.set) h s ∧
      (∀ c ∈ h, c.act.timestamp.toNat < 2 ^ 40) ∧ ¬ WindowsKept agentEnv s ∧
      ∀ timestamp calls callsReturn, step agentEnv s
        ⟨wallet, timestamp, .executeWithSessionKey calls agent callsReturn⟩ = none := by
  obtain ⟨s, hs, hout⟩ := Option.map_eq_some_iff.mp endlessGrant_runs
  rw [Prod.mk.injEq] at hout
  obtain ⟨hid, hlimit⟩ := hout
  have hflag : (s.sessionKeyDataOf agentEnv.keccak wallet 1).nativeTokenSpendLimitBypassed =
      false := by
    rw [← hid]
    exact congrArg Prod.fst hlimit
  have hbudget : (s.sessionKeyDataOf agentEnv.keccak wallet 1).nativeBudget =
      (⟨1000, 0xffffffffffff⟩, ⟨10, 0⟩) := by
    rw [← hid]
    exact congrArg Prod.snd hlimit
  have hlong : ¬ WindowFits
      (s.sessionKeyDataOf agentEnv.keccak wallet 1).nativeTokenSpendLimitTimeInfo := by
    rw [show (s.sessionKeyDataOf agentEnv.keccak wallet 1).nativeTokenSpendLimitTimeInfo =
      ⟨1000, 0xffffffffffff⟩ from congrArg Prod.fst hbudget]
    decide +kernel
  refine ⟨_, s, Run.nil.snoc hs, ?_, ?_, ?_⟩
  · intro c hc
    obtain rfl := List.mem_singleton.mp hc
    show (1000 : Uint256).toNat < 2 ^ 40
    decide
  · intro hkept
    exact hlong ((hkept.fits wallet 1).native hflag)
  · intro timestamp calls callsReturn
    by_contra hc
    obtain ⟨s', hs'⟩ := Option.ne_none_iff_exists'.mp hc
    have hpre := (executeWithSessionKey_eq_ok.mp (toOption_eq_some.mp hs')).1
    rw [updateLimitsPreExec_eq_ok, hid] at hpre
    obtain ⟨n, t, d, hcalls, hnative, -⟩ := hpre
    obtain ⟨-, -, hdata⟩ := native_of_meterCalls hcalls (by decide)
    rw [State.sessionKeyDataOf, hdata, ← State.sessionKeyDataOf, meterNative,
      if_neg (by rw [hflag]; decide), hbudget] at hnative
    simp only [bind_eq_ok, orRevert_eq_ok] at hnative
    obtain ⟨r, hr, -⟩ := hnative
    rcases fits_of_runtimeUpdate hr with hzero | hfits
    · exact absurd hzero (by decide +kernel)
    · exact absurd hfits (by decide +kernel)

end Bufi.Session
