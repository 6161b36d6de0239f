import Bufi.Evm.Agree
import Bufi.Session.EntryPoint

/-!
# What the views of a session key show

The view functions of `SessionKeyPermissionsLoupe.sol`.  They leave out what is stored
but not in force: the amounts of a native token limit that is bypassed and of a gas limit
that is off, and the paymaster of a lifted rule.

`SessionKeyData.Alike` relates the data of two keys that differ in no more than that, and
every function of the plugin that reads or writes such data respects it.  A limit that is
off has nothing used (`Cleared`), in every state that the plugin can be in
(`cleared_of_run`): otherwise it would start with a hidden usage when it is set again.
-/

namespace Bufi.Session

open Bufi.Evm

/-! ### Views -/

structure SpendLimitInfo where
  hasLimit : Bool
  limit : Uint256
  limitUsed : Uint256
  refreshInterval : Uint48
  lastUsedTime : Uint48
  deriving DecidableEq

/-- The value of a struct that nothing is assigned to. -/
def SpendLimitInfo.default : SpendLimitInfo := ⟨false, 0, 0, 0, 0⟩

/-- A limit with its flag. -/
def SpendLimitInfo.of (hasLimit : Bool) (b : Budget) : SpendLimitInfo where
  hasLimit := hasLimit
  limit := b.2.limitAmount
  limitUsed := b.2.limitUsed
  refreshInterval := b.1.refreshInterval
  lastUsedTime := b.1.lastUsed

/-- A limit that is on; the other fields are left at zero. -/
def SpendLimitInfo.ifOn (on : Bool) (b : Budget) : SpendLimitInfo :=
  if on then .of true b else .default

section

variable {W S : Type} (K : Keccak W) (s : State W S) (account sessionKey : Address)

def getAccessControlType : Except Revert ContractAccessControlType := do
  let keyId ← loadSessionKeyId K s account sessionKey
  pure (s.sessionKeyDataOf K account keyId).contractAccessControlType

def getAccessControlEntry (contractAddress : Address) : Except Revert (Bool × Bool) := do
  let keyId ← loadSessionKeyId K s account sessionKey
  let contractData := s.contractDataOf K account keyId contractAddress
  pure (contractData.isOnList, contractData.checkSelectors)

def isSelectorOnAccessControlList (contractAddress : Address) (selector : Bytes4) :
    Except Revert Bool := do
  let keyId ← loadSessionKeyId K s account sessionKey
  pure (s.functionDataOf K account keyId contractAddress selector).isOnList

def getKeyTimeRange : Except Revert (Uint48 × Uint48) := do
  let keyId ← loadSessionKeyId K s account sessionKey
  let d := s.sessionKeyDataOf K account keyId
  pure (d.validAfter, d.validUntil)

/-- The native token limit, unless it is bypassed. -/
def SessionKeyData.nativeInfo (d : SessionKeyData) : SpendLimitInfo :=
  .ifOn (!d.nativeTokenSpendLimitBypassed) d.nativeBudget

def getNativeTokenSpendLimitInfo : Except Revert SpendLimitInfo := do
  let keyId ← loadSessionKeyId K s account sessionKey
  pure (s.sessionKeyDataOf K account keyId).nativeInfo

/-- Shown as it is stored, with or without a limit. -/
def getERC20SpendLimitInfo (token : Address) : Except Revert SpendLimitInfo := do
  let keyId ← loadSessionKeyId K s account sessionKey
  let tokenContractData := s.contractDataOf K account keyId token
  pure (.of tokenContractData.isERC20WithSpendLimit tokenContractData.budget)

def SessionKeyData.paymasterInfo (d : SessionKeyData) : Address :=
  if d.hasRequiredPaymaster then d.requiredPaymaster else 0

def getRequiredPaymaster : Except Revert Address := do
  let keyId ← loadSessionKeyId K s account sessionKey
  pure (s.sessionKeyDataOf K account keyId).paymasterInfo

def SessionKeyData.gasInfo (d : SessionKeyData) : SpendLimitInfo := .ifOn d.hasGasLimit d.gasBudget

/-- The gas limit, and whether its window starts anew. -/
def getGasSpendLimit : Except Revert (SpendLimitInfo × Bool) := do
  let keyId ← loadSessionKeyId K s account sessionKey
  let d := s.sessionKeyDataOf K account keyId
  pure (d.gasInfo, d.gasLimitResetThisBundle)

/-- The answers of all views about a key. -/
structure KeyView where
  accessControlType : Except Revert ContractAccessControlType
  accessControlEntry : Address → Except Revert (Bool × Bool)
  selectorOnList : Address → Bytes4 → Except Revert Bool
  keyTimeRange : Except Revert (Uint48 × Uint48)
  nativeTokenSpendLimit : Except Revert SpendLimitInfo
  erc20SpendLimit : Address → Except Revert SpendLimitInfo
  requiredPaymaster : Except Revert Address
  gasSpendLimit : Except Revert (SpendLimitInfo × Bool)

def keyView : KeyView where
  accessControlType := getAccessControlType K s account sessionKey
  accessControlEntry := getAccessControlEntry K s account sessionKey
  selectorOnList := isSelectorOnAccessControlList K s account sessionKey
  keyTimeRange := getKeyTimeRange K s account sessionKey
  nativeTokenSpendLimit := getNativeTokenSpendLimitInfo K s account sessionKey
  erc20SpendLimit := getERC20SpendLimitInfo K s account sessionKey
  requiredPaymaster := getRequiredPaymaster K s account sessionKey
  gasSpendLimit := getGasSpendLimit K s account sessionKey

end

/-! ### Data that is in force -/

namespace SessionKeyData

/-- The same data, but for limits and a paymaster that are not in force. -/
structure Alike (d e : SessionKeyData) : Prop where
  accessType : d.contractAccessControlType = e.contractAccessControlType
  validAfter : d.validAfter = e.validAfter
  validUntil : d.validUntil = e.validUntil
  hasPaymaster : d.hasRequiredPaymaster = e.hasRequiredPaymaster
  paymaster : d.hasRequiredPaymaster = true → d.requiredPaymaster = e.requiredPaymaster
  bypassed : d.nativeTokenSpendLimitBypassed = e.nativeTokenSpendLimitBypassed
  native : d.nativeTokenSpendLimitBypassed = false → d.nativeBudget = e.nativeBudget
  nativeUsed : d.nativeTokenSpendLimit.limitUsed = e.nativeTokenSpendLimit.limitUsed
  hasGasLimit : d.hasGasLimit = e.hasGasLimit
  gas : d.hasGasLimit = true → d.gasBudget = e.gasBudget
  gasUsed : d.gasLimit.limitUsed = e.gasLimit.limitUsed
  resets : d.gasLimitResetThisBundle = e.gasLimitResetThisBundle

/-- What is not in force has nothing used, and a required paymaster is one. -/
structure Cleared (d : SessionKeyData) : Prop where
  native : d.nativeTokenSpendLimitBypassed = true → d.nativeTokenSpendLimit.limitUsed = 0
  gas : d.hasGasLimit = false → d.gasLimit.limitUsed = 0
  paymaster : d.hasRequiredPaymaster = true → d.requiredPaymaster ≠ 0

theorem Alike.refl (d : SessionKeyData) : Alike d d :=
  ⟨rfl, rfl, rfl, rfl, fun _ => rfl, rfl, fun _ => rfl, rfl, rfl, fun _ => rfl, rfl, rfl⟩

theorem cleared_default : Cleared default where
  native _ := rfl
  gas _ := rfl
  paymaster h := by cases h

end SessionKeyData

theorem SpendLimitInfo.of_injective {b c : Budget} {x y : Bool} (h : of x b = of y c) :
    x = y ∧ b = c := by
  obtain ⟨⟨lastUsed, refreshInterval⟩, ⟨limitAmount, limitUsed⟩⟩ := b
  obtain ⟨⟨lastUsed', refreshInterval'⟩, ⟨limitAmount', limitUsed'⟩⟩ := c
  simp only [of, SpendLimitInfo.mk.injEq] at h
  obtain ⟨rfl, rfl, rfl, rfl, rfl⟩ := h
  exact ⟨rfl, rfl⟩

theorem SpendLimitInfo.ifOn_injective {b c : Budget} {x y : Bool} (h : ifOn x b = ifOn y c) :
    x = y ∧ (x = true → b = c) := by
  cases x with
  | true =>
    cases y with
    | true => exact ⟨rfl, fun _ => (of_injective h).2⟩
    | false => exact absurd (congrArg SpendLimitInfo.hasLimit h).symm Bool.false_ne_true
  | false =>
    cases y with
    | true => exact absurd (congrArg SpendLimitInfo.hasLimit h) Bool.false_ne_true
    | false => exact ⟨rfl, fun hx => absurd hx Bool.false_ne_true⟩

/-! ### What the views tell -/

section

variable {d e : SessionKeyData}

theorem native_of_info (h : d.nativeInfo = e.nativeInfo) :
    d.nativeTokenSpendLimitBypassed = e.nativeTokenSpendLimitBypassed
      ∧ (d.nativeTokenSpendLimitBypassed = false → d.nativeBudget = e.nativeBudget) := by
  obtain ⟨hflag, hbudget⟩ := SpendLimitInfo.ifOn_injective h
  refine ⟨Bool.not_inj hflag, fun hb => hbudget ?_⟩
  rw [hb]
  rfl

theorem gas_of_info (h : d.gasInfo = e.gasInfo) :
    d.hasGasLimit = e.hasGasLimit ∧ (d.hasGasLimit = true → d.gasBudget = e.gasBudget) :=
  SpendLimitInfo.ifOn_injective h

theorem paymaster_of_info (hd : d.Cleared) (he : e.Cleared)
    (h : d.paymasterInfo = e.paymasterInfo) :
    d.hasRequiredPaymaster = e.hasRequiredPaymaster
      ∧ (d.hasRequiredPaymaster = true → d.requiredPaymaster = e.requiredPaymaster) := by
  rw [SessionKeyData.paymasterInfo, SessionKeyData.paymasterInfo] at h
  cases hpd : d.hasRequiredPaymaster with
  | true =>
    cases hpe : e.hasRequiredPaymaster with
    | true =>
      rw [hpd, hpe] at h
      exact ⟨rfl, fun _ => h⟩
    | false =>
      rw [hpd, hpe] at h
      exact absurd h (hd.paymaster hpd)
  | false =>
    cases hpe : e.hasRequiredPaymaster with
    | true =>
      rw [hpd, hpe] at h
      exact absurd h.symm (he.paymaster hpe)
    | false => exact ⟨rfl, fun hc => by cases hc⟩

/-- What is used of a limit is shown, or it is nothing. -/
theorem alike_of_infos (hd : d.Cleared) (he : e.Cleared)
    (htype : d.contractAccessControlType = e.contractAccessControlType)
    (hafter : d.validAfter = e.validAfter) (huntil : d.validUntil = e.validUntil)
    (hnative : d.nativeInfo = e.nativeInfo) (hpaymaster : d.paymasterInfo = e.paymasterInfo)
    (hgas : d.gasInfo = e.gasInfo)
    (hresets : d.gasLimitResetThisBundle = e.gasLimitResetThisBundle) : d.Alike e where
  accessType := htype
  validAfter := hafter
  validUntil := huntil
  hasPaymaster := (paymaster_of_info hd he hpaymaster).1
  paymaster := (paymaster_of_info hd he hpaymaster).2
  bypassed := (native_of_info hnative).1
  native := (native_of_info hnative).2
  nativeUsed := by
    obtain ⟨hflag, hbudget⟩ := native_of_info hnative
    cases hb : d.nativeTokenSpendLimitBypassed with
    | true => rw [hd.native hb, he.native (hflag.symm.trans hb)]
    | false => exact congrArg (fun b : Budget => b.2.limitUsed) (hbudget hb)
  hasGasLimit := (gas_of_info hgas).1
  gas := (gas_of_info hgas).2
  gasUsed := by
    obtain ⟨hflag, hbudget⟩ := gas_of_info hgas
    cases hb : d.hasGasLimit with
    | true => exact congrArg (fun b : Budget => b.2.limitUsed) (hbudget hb)
    | false => rw [hd.gas hb, he.gas (hflag.symm.trans hb)]
  resets := hresets

theorem SessionKeyData.Alike.infos (h : d.Alike e) :
    d.nativeInfo = e.nativeInfo ∧ d.paymasterInfo = e.paymasterInfo ∧ d.gasInfo = e.gasInfo := by
  refine ⟨?_, ?_, ?_⟩
  · rw [nativeInfo, nativeInfo, ← h.bypassed]
    cases hb : d.nativeTokenSpendLimitBypassed with
    | true => rfl
    | false => rw [h.native hb]
  · rw [paymasterInfo, paymasterInfo, ← h.hasPaymaster]
    cases hp : d.hasRequiredPaymaster with
    | true => exact h.paymaster hp
    | false => rfl
  · rw [gasInfo, gasInfo, ← h.hasGasLimit]
    cases hg : d.hasGasLimit with
    | true => rw [h.gas hg]
    | false => rfl

end

/-! ### Functions that respect the relation -/

namespace SessionKeyData.Alike

variable {d e : SessionKeyData}

theorem gasLimit_eq (h : d.Alike e) (hgas : d.hasGasLimit = true) :
    d.gasLimitTimeInfo = e.gasLimitTimeInfo ∧ d.gasLimit = e.gasLimit :=
  Prod.mk.injEq _ _ _ _ ▸ h.gas hgas

theorem setNativeTokenSpendLimit (h : d.Alike e) (timestamp spendLimit : Uint256)
    (refreshInterval : Uint48) :
    (d.setNativeTokenSpendLimit timestamp spendLimit refreshInterval).Alike
      (e.setNativeTokenSpendLimit timestamp spendLimit refreshInterval) := by
  simp only [SessionKeyData.setNativeTokenSpendLimit, updateSpendLimits]
  by_cases hmax : spendLimit = BitVec.allOnes 256
  · simp only [hmax, if_true]
    exact { h with
      bypassed := rfl
      native := fun hc => by cases hc
      nativeUsed := rfl }
  · have hlimit : ∀ x : SpendLimit, ∀ y : SpendLimit, x.limitUsed = y.limitUsed →
        (⟨spendLimit, x.limitUsed⟩ : SpendLimit) = ⟨spendLimit, y.limitUsed⟩ := by
      intro x y hxy
      rw [hxy]
    simp only [hmax, if_false]
    exact { h with
      bypassed := rfl
      native := fun _ => congrArg (Prod.mk _) (hlimit _ _ h.nativeUsed)
      nativeUsed := h.nativeUsed }

theorem setGasSpendLimit (h : d.Alike e) (timestamp spendLimit : Uint256)
    (refreshInterval : Uint48) :
    (d.setGasSpendLimit timestamp spendLimit refreshInterval).Alike
      (e.setGasSpendLimit timestamp spendLimit refreshInterval) := by
  simp only [SessionKeyData.setGasSpendLimit, updateSpendLimits]
  by_cases hmax : spendLimit = BitVec.allOnes 256
  · simp only [hmax, if_true]
    exact { h with
      hasGasLimit := rfl
      gas := fun hc => by cases hc
      gasUsed := rfl
      resets := rfl }
  · have hlimit : ∀ x : SpendLimit, ∀ y : SpendLimit, x.limitUsed = y.limitUsed →
        (⟨spendLimit, x.limitUsed⟩ : SpendLimit) = ⟨spendLimit, y.limitUsed⟩ := by
      intro x y hxy
      rw [hxy]
    simp only [hmax, if_false]
    exact { h with
      hasGasLimit := rfl
      gas := fun _ => congrArg (Prod.mk _) (hlimit _ _ h.gasUsed)
      gasUsed := h.gasUsed
      resets := rfl }

theorem setRequiredPaymaster (h : d.Alike e) (requiredPaymaster : Address) :
    (d.setRequiredPaymaster requiredPaymaster).Alike
      (e.setRequiredPaymaster requiredPaymaster) := by
  simp only [SessionKeyData.setRequiredPaymaster]
  by_cases hzero : requiredPaymaster = 0
  · simp only [hzero, if_true]
    exact { h with
      hasPaymaster := rfl
      paymaster := fun hc => by cases hc }
  · simp only [hzero, if_false]
    exact { h with
      hasPaymaster := rfl
      paymaster := fun _ => rfl }

theorem finishGasReset (h : d.Alike e) (timestamp : Uint256) :
    (d.finishGasReset timestamp).Alike (e.finishGasReset timestamp) := by
  rw [SessionKeyData.finishGasReset, SessionKeyData.finishGasReset, ← h.resets]
  cases hr : d.gasLimitResetThisBundle with
  | true =>
    exact { h with
      gas := fun hgas => by
        obtain ⟨htime, hlimit⟩ := h.gasLimit_eq hgas
        simp only [if_true, gasBudget, htime, hlimit]
      resets := rfl }
  | false => exact h

/-- The same answer about the gas, and data that is alike. -/
theorem checkGas (h : d.Alike e) (lib : UserOperationLib) (userOp : PackedUserOperation) :
    Agree (fun x y : Bool × Uint48 × SessionKeyData =>
        x.1 = y.1 ∧ x.2.1 = y.2.1 ∧ x.2.2.Alike y.2.2)
      (Session.checkGas lib userOp d) (Session.checkGas lib userOp e) := by
  rw [Session.checkGas, Session.checkGas, ← h.hasGasLimit]
  cases hgas : d.hasGasLimit with
  | false => exact .pure ⟨rfl, rfl, h⟩
  | true =>
    obtain ⟨htime, hlimit⟩ := h.gasLimit_eq hgas
    have hused : ∀ r x, SessionKeyData.Alike
        { d with
          gasLimitResetThisBundle := r
          gasLimitTimeInfo := e.gasLimitTimeInfo
          gasLimit := x }
        { e with gasLimitResetThisBundle := r, gasLimit := x } := by
      intro r x
      exact { h with
        gas := fun _ => rfl
        gasUsed := rfl
        resets := rfl }
    refine .bind_same (fun cost => ?_)
    simp only [checkAndUpdateGasLimitUsage, htime, hlimit, h.resets]
    split_ifs
    · exact .ok ⟨rfl, rfl, h⟩
    · exact .ok ⟨rfl, rfl, hused _ _⟩
    · exact .ok ⟨rfl, rfl, h⟩
    · cases checkedAdd48 e.gasLimitTimeInfo.lastUsed e.gasLimitTimeInfo.refreshInterval with
      | none => exact .error _
      | some windowEnd => exact .ok ⟨rfl, rfl, hused _ _⟩
    · exact .ok ⟨rfl, rfl, hused _ _⟩
    · cases checkedAdd48 e.gasLimitTimeInfo.lastUsed e.gasLimitTimeInfo.refreshInterval with
      | none => exact .error _
      | some windowEnd => exact .ok ⟨rfl, rfl, hused _ _⟩
    · exact .ok ⟨rfl, rfl, h⟩

theorem meterNative (h : d.Alike e) (timestamp : Uint256) (account sessionKey : Address) (n : ℕ) :
    Agree SessionKeyData.Alike (Session.meterNative timestamp account sessionKey n d)
      (Session.meterNative timestamp account sessionKey n e) := by
  rw [Session.meterNative, Session.meterNative, ← h.bypassed]
  cases hb : d.nativeTokenSpendLimitBypassed with
  | true => exact .pure h
  | false =>
    rw [h.native hb]
    refine .bind_same (fun r => .bind_same (fun _ => .pure ?_))
    exact { h with
      native := fun _ => rfl
      nativeUsed := rfl }

theorem checkNativeSpend_eq (h : d.Alike e) (spend : Uint256) :
    checkNativeSpend d spend = checkNativeSpend e spend := by
  rw [checkNativeSpend, checkNativeSpend, ← h.bypassed]
  cases hb : d.nativeTokenSpendLimitBypassed with
  | true => rfl
  | false => rw [h.native hb]

theorem checkPaymaster_eq (h : d.Alike e) (userOp : PackedUserOperation) :
    checkPaymaster d userOp = checkPaymaster e userOp := by
  rw [checkPaymaster, checkPaymaster, ← h.hasPaymaster]
  cases hp : d.hasRequiredPaymaster with
  | true => rw [h.paymaster hp]
  | false => rfl

end SessionKeyData.Alike

/-! ### What every call keeps of a key's own data -/

/-- A property of the data of a key that every function of the plugin keeps. -/
structure KeyInvariant (P : SessionKeyData → Prop) : Prop where
  default : P .default
  perform : ∀ {timestamp p q u}, P p.key → Permissions.perform timestamp p u = .ok q → P q.key
  checkGas : ∀ {lib userOp d r}, P d → checkGas lib userOp d = .ok r → P r.2.2
  meterNative : ∀ {timestamp account key n d d'}, P d →
    meterNative timestamp account key n d = .ok d' → P d'
  finishGasReset : ∀ {d}, P d → ∀ timestamp, P (d.finishGasReset timestamp)

namespace KeyInvariant

variable {P : SessionKeyData → Prop} (hP : KeyInvariant P)

include hP

theorem updateAll {timestamp : Uint256} {p q : Permissions} {updates : List Bytes} (hp : P p.key)
    (h : p.updateAll timestamp updates = .ok q) : P q.key := by
  refine foldlM_invariant (P := fun p => P p.key) h hp ?_
  intro p u q hp hu
  rw [Permissions.update, bind_eq_ok] at hu
  obtain ⟨update, -, hu⟩ := hu
  exact hP.perform hp hu

variable {W S : Type} {E : Env W S} {account : Address} {s s' : State W S}

theorem keyAdded {timestamp : Uint256} {key : Address} {updates : List Bytes}
    (hs : ∀ a i, P (s.sessionKeyDataOf E.keccak a i))
    (h : KeyAdded E timestamp account key updates s s') (a : Address) (i : Bytes32) :
    P (s'.sessionKeyDataOf E.keccak a i) := by
  by_cases ha : a = account
  · subst ha
    by_cases hi : i = s.keyIdCounter a + 1
    · rw [hi]
      exact hP.updateAll (hs a _) h.updated
    · rw [show s'.sessionKeyDataOf E.keccak a i = s.sessionKeyDataOf E.keccak a i from
        congrArg Permissions.key (h.permissions i hi)]
      exact hs a i
  · rw [show s'.sessionKeyDataOf E.keccak a i = s.sessionKeyDataOf E.keccak a i from
      congrArg Permissions.key ((h.others a ha).permissions i)]
    exact hs a i

omit hP in
/-- A write under one id leaves the data of the others. -/
theorem write {id : Bytes32} (hs : ∀ a i, P (s.sessionKeyDataOf E.keccak a i))
    (hwrite : KeyWrite E.keccak account id s s') (hid : P (s'.sessionKeyDataOf E.keccak account id))
    (a : Address) (i : Bytes32) : P (s'.sessionKeyDataOf E.keccak a i) := by
  by_cases heq : a = account ∧ i = id
  · rw [heq.1, heq.2]
    exact hid
  · rw [show s'.sessionKeyDataOf E.keccak a i = s.sessionKeyDataOf E.keccak a i from
      congrArg Permissions.key (hwrite.permissions a i heq)]
    exact hs a i

omit hP in
/-- No permission of the account has changed, and no other account. -/
theorem same (hs : ∀ a i, P (s.sessionKeyDataOf E.keccak a i))
    (hperm : ∀ i, s'.permissionsOf E.keccak account i = s.permissionsOf E.keccak account i)
    (hothers : ∀ a, a ≠ account → SameAccount E.keccak a s s') (a : Address) (i : Bytes32) :
    P (s'.sessionKeyDataOf E.keccak a i) := by
  have hsame : s'.permissionsOf E.keccak a i = s.permissionsOf E.keccak a i := by
    by_cases ha : a = account
    · rw [ha]
      exact hperm i
    · exact (hothers a ha).permissions i
  rw [show s'.sessionKeyDataOf E.keccak a i = s.sessionKeyDataOf E.keccak a i from
    congrArg Permissions.key hsame]
  exact hs a i

variable [DecidableEq W]

omit hP in
theorem keyData_setKeyData (s : State W S) (id : Bytes32) (d : SessionKeyData) :
    (s.setKeyData E.keccak account id d).sessionKeyDataOf E.keccak account id = d := by
  have hperm := s.permissionsOf_setKeyData E.keccak account account id id d
  rw [if_pos ⟨rfl, rfl⟩] at hperm
  exact congrArg Permissions.key hperm

theorem updateLimitsPreExec {timestamp : Uint256} {calls : List Call} {key : Address}
    (hs : ∀ a i, P (s.sessionKeyDataOf E.keccak a i))
    (h : Session.updateLimitsPreExec E timestamp account s calls key = .ok s') (a : Address)
    (i : Bytes32) : P (s'.sessionKeyDataOf E.keccak a i) := by
  refine write hs (updateLimitsPreExec_keyWrite h) ?_ a i
  rw [updateLimitsPreExec_eq_ok] at h
  obtain ⟨n, t, d, hcalls, hnative, rfl⟩ := h
  obtain ⟨-, -, hdata⟩ := native_of_meterCalls hcalls (by decide)
  have hread : t.sessionKeyDataOf E.keccak account (s.sessionKeyIdOf E.keccak account key)
      = s.sessionKeyDataOf E.keccak account (s.sessionKeyIdOf E.keccak account key) :=
    congrFun hdata _
  rw [keyData_setKeyData]
  rw [hread] at hnative
  exact hP.finishGasReset (hP.meterNative (hs _ _) hnative) timestamp

theorem exec {tx : Tx} (hs : ∀ a i, P (s.sessionKeyDataOf E.keccak a i))
    (hexec : Session.exec E s tx = .ok s') (a : Address) (i : Bytes32) :
    P (s'.sessionKeyDataOf E.keccak a i) := by
  obtain ⟨sender, timestamp, action⟩ := tx
  cases action with
  | onInstall data =>
    obtain ⟨keys, tags, updates, -, -, -, hadds⟩ := onInstall_eq_ok hexec
    refine foldlM_invariant (P := fun s => ∀ a i, P (s.sessionKeyDataOf E.keccak a i)) hadds hs ?_
      a i
    intro t entry t' ht hadd
    exact hP.keyAdded ht (addEntry_eq_ok hadd)
  | onUninstall =>
    obtain rfl := pure_eq_ok.mp hexec
    have huninstalled := uninstalled_onUninstall E sender s
    exact same hs huninstalled.permissions huninstalled.others a i
  | addSessionKey key tag updates =>
    change addSessionKey E timestamp sender s key tag updates = .ok s' at hexec
    exact hP.keyAdded hs (addSessionKey_eq_ok hexec) a i
  | removeSessionKey key predecessor =>
    have hremoved := removeSessionKey_eq_ok hexec
    exact same hs hremoved.permissions hremoved.others a i
  | rotateSessionKey oldKey predecessor newKey =>
    have hrotated := rotateSessionKey_eq_ok hexec
    exact same hs hrotated.permissions hrotated.others a i
  | updateKeyPermissions key updates =>
    obtain ⟨-, hwrite, hupdates⟩ := updateKeyPermissions_eq_ok hexec
    exact write hs hwrite (hP.updateAll (hs _ _) hupdates) a i
  | userOpValidationFunction functionId userOp userOpHash =>
    obtain ⟨⟨v, t⟩, hvalidation, rfl⟩ := map_eq_ok.mp hexec
    rw [userOpValidationFunction] at hvalidation
    split at hvalidation
    · simp only [bind_eq_ok, orRevert_eq_ok, require_eq_ok, exists_const, pure_eq_ok,
        Prod.exists, Prod.mk.injEq] at hvalidation
      obtain ⟨calls, key, -, signer, -, -, w, u, hcheck, -, -, rfl⟩ := hvalidation
      obtain ⟨ok, validAfter, d, hgas, rfl⟩ := checkUserOpPermissions_eq_ok hcheck
      refine write hs (.setKeyData _ _ _ _ _) ?_ a i
      rw [keyData_setKeyData]
      exact hP.checkGas (hs _ _) hgas
    · exact absurd hvalidation (by simp [throw, throwThe, MonadExceptOf.throw])
  | executeWithSessionKey calls key callsReturn =>
    exact hP.updateLimitsPreExec hs (executeWithSessionKey_eq_ok.mp hexec).1 a i
  | resetSessionKeyGasLimitTimestamp account key =>
    simp only [Session.exec, resetSessionKeyGasLimitTimestamp, bind_eq_ok, pure_eq_ok] at hexec
    obtain ⟨id, -, rfl⟩ := hexec
    refine write hs (.setKeyData _ _ _ _ _) ?_ a i
    rw [keyData_setKeyData]
    exact hP.finishGasReset (hs _ _) timestamp

/-- **An invariant of the functions holds of every key in every state reached.** -/
theorem of_run {h : List (Evm.Call (State W S) Tx)}
    (hrun : Run (step E) (State.initial E.set) h s) (a : Address) (i : Bytes32) :
    P (s.sessionKeyDataOf E.keccak a i) := by
  have hall : ∀ a i, P (s.sessionKeyDataOf E.keccak a i) := by
    induction hrun with
    | nil => exact fun _ _ => hP.default
    | snoc hrun hs ih => exact hP.exec ih (toOption_eq_some.mp hs)
  exact hall a i

end KeyInvariant

/-! ### What is off has nothing used -/

namespace SessionKeyData.Cleared

variable {d : SessionKeyData}

theorem setNativeTokenSpendLimit (h : d.Cleared) (timestamp spendLimit : Uint256)
    (refreshInterval : Uint48) :
    (d.setNativeTokenSpendLimit timestamp spendLimit refreshInterval).Cleared := by
  simp only [SessionKeyData.setNativeTokenSpendLimit, updateSpendLimits]
  by_cases hmax : spendLimit = BitVec.allOnes 256
  · simp only [hmax, if_true]
    exact { h with native := fun _ => rfl }
  · simp only [hmax, if_false]
    exact { h with native := fun hc => absurd hc Bool.false_ne_true }

theorem setGasSpendLimit (h : d.Cleared) (timestamp spendLimit : Uint256)
    (refreshInterval : Uint48) :
    (d.setGasSpendLimit timestamp spendLimit refreshInterval).Cleared := by
  simp only [SessionKeyData.setGasSpendLimit, updateSpendLimits]
  by_cases hmax : spendLimit = BitVec.allOnes 256
  · simp only [hmax, if_true]
    exact { h with gas := fun _ => rfl }
  · simp only [hmax, if_false]
    exact { h with gas := fun hc => absurd hc.symm Bool.false_ne_true }

theorem setRequiredPaymaster (h : d.Cleared) (requiredPaymaster : Address) :
    (d.setRequiredPaymaster requiredPaymaster).Cleared := by
  simp only [SessionKeyData.setRequiredPaymaster]
  by_cases hzero : requiredPaymaster = 0
  · simp only [hzero, if_true]
    exact { h with paymaster := fun hc => absurd hc Bool.false_ne_true }
  · simp only [hzero, if_false]
    exact { h with paymaster := fun _ => hzero }

/-- Data with a gas limit may use it. -/
theorem useGas (h : d.Cleared) (hgas : d.hasGasLimit = true) (r : Bool) (x : SpendLimit) :
    Cleared { d with gasLimitResetThisBundle := r, gasLimit := x } :=
  { h with gas := fun hc => absurd (hc.symm.trans hgas) Bool.false_ne_true }

theorem checkGas (h : d.Cleared) {lib : UserOperationLib} {userOp : PackedUserOperation}
    {r : Bool × Uint48 × SessionKeyData} (hr : Session.checkGas lib userOp d = .ok r) :
    r.2.2.Cleared := by
  rw [Session.checkGas] at hr
  cases hgas : d.hasGasLimit with
  | false =>
    rw [hgas] at hr
    obtain rfl := pure_eq_ok.mp hr
    exact h
  | true =>
    rw [hgas] at hr
    obtain ⟨cost, -, hr⟩ := bind_eq_ok.mp hr
    rw [orRevert_eq_ok] at hr
    simp only [checkAndUpdateGasLimitUsage] at hr
    split_ifs at hr
    · rw [← Option.some.inj hr]
      exact h
    · rw [← Option.some.inj hr]
      exact h.useGas hgas _ _
    · rw [← Option.some.inj hr]
      exact h
    · obtain ⟨windowEnd, -, rfl⟩ := Option.map_eq_some_iff.mp hr
      exact h.useGas hgas _ _
    · obtain ⟨windowEnd, -, rfl⟩ := Option.map_eq_some_iff.mp hr
      exact h.useGas hgas _ _
    · obtain ⟨windowEnd, -, rfl⟩ := Option.map_eq_some_iff.mp hr
      exact h.useGas hgas _ _
    · rw [← Option.some.inj hr]
      exact h

theorem meterNative (h : d.Cleared) {timestamp : Uint256} {account key : Address} {n : ℕ}
    {e : SessionKeyData} (he : Session.meterNative timestamp account key n d = .ok e) :
    e.Cleared := by
  rw [Session.meterNative] at he
  cases hb : d.nativeTokenSpendLimitBypassed with
  | true =>
    rw [hb] at he
    obtain rfl := pure_eq_ok.mp he
    exact h
  | false =>
    rw [hb] at he
    simp only [Bool.false_eq_true, if_false, bind_eq_ok, require_eq_ok, exists_const,
      pure_eq_ok] at he
    obtain ⟨r, -, -, rfl⟩ := he
    exact { h with native := fun hc => absurd (hb.symm.trans hc) Bool.false_ne_true }

theorem finishGasReset (h : d.Cleared) (timestamp : Uint256) :
    (d.finishGasReset timestamp).Cleared := by
  rw [SessionKeyData.finishGasReset]
  split_ifs
  · exact { h with }
  · exact h

theorem perform {timestamp : Uint256} {p q : Permissions} {u : PermissionsUpdate}
    (h : p.key.Cleared) (hq : p.perform timestamp u = .ok q) : q.key.Cleared := by
  cases u with
  | setAccessListType type =>
    obtain rfl := pure_eq_ok.mp hq
    exact { h with }
  | updateAccessListAddressEntry c isOnList checkSelectors =>
    obtain rfl := pure_eq_ok.mp hq
    exact h
  | updateAccessListFunctionEntry c selector isOnList =>
    obtain rfl := pure_eq_ok.mp hq
    exact h
  | updateTimeRange validAfter validUntil =>
    obtain rfl := pure_eq_ok.mp hq
    exact { h with }
  | setNativeTokenSpendLimit spendLimit refreshInterval =>
    obtain rfl := pure_eq_ok.mp hq
    exact h.setNativeTokenSpendLimit _ _ _
  | setERC20SpendLimit token spendLimit refreshInterval =>
    simp only [Permissions.perform, bind_eq_ok, require_eq_ok, exists_const, pure_eq_ok] at hq
    obtain ⟨-, rfl⟩ := hq
    exact h
  | setGasSpendLimit spendLimit refreshInterval =>
    obtain rfl := pure_eq_ok.mp hq
    exact h.setGasSpendLimit _ _ _
  | setRequiredPaymaster requiredPaymaster =>
    obtain rfl := pure_eq_ok.mp hq
    exact h.setRequiredPaymaster _

end SessionKeyData.Cleared

theorem keyInvariant_cleared : KeyInvariant SessionKeyData.Cleared where
  default := SessionKeyData.cleared_default
  perform hp hq := hp.perform hq
  checkGas hd hr := hd.checkGas hr
  meterNative hd he := hd.meterNative he
  finishGasReset hd timestamp := hd.finishGasReset timestamp

theorem cleared_of_run {W S : Type} [DecidableEq W] {E : Env W S} {s : State W S}
    {h : List (Evm.Call (State W S) Tx)} (hrun : Run (step E) (State.initial E.set) h s)
    (account : Address) (id : Bytes32) : (s.sessionKeyDataOf E.keccak account id).Cleared :=
  keyInvariant_cleared.of_run hrun account id

end Bufi.Session
