import Bufi.Evm.AbiWords
import Bufi.Js.Address
import Bufi.Js.Number
import Bufi.Session.Access

/-!
# Compiling a grant

`buildBufiGrant.ts`: a grant says what a session key may call, how much it may spend
and for how long, and is compiled into the permission updates of the plugin.  The
encoders are those of `permissionUpdates.ts`; viem checks each argument before it
encodes it, and throws where it is not of its type.

An update means to the plugin what it says here (`decodeUpdate_encodeFunctionData`),
so that the permissions of a compiled grant can be read off the updates themselves
(`updateAll_encode`).  `buildBufiGrant_eq_ok` lists them.
-/

namespace Bufi.Grant

open Bufi.Evm Bufi.Js Bufi.Session

/-! ### Grants -/

structure BufiGrantScopeEntry where
  target : String
  selectors : Option (List Bytes4)
  deriving DecidableEq

structure BufiGrantSpendBudget where
  limit : ℤ
  refreshIntervalSeconds : Number
  deriving DecidableEq

structure BufiGrantErc20Budget extends BufiGrantSpendBudget where
  token : String
  deriving DecidableEq

structure BufiGrantBudget where
  erc20 : Option (List BufiGrantErc20Budget)
  native : Option BufiGrantSpendBudget
  gas : Option BufiGrantSpendBudget
  deriving DecidableEq

structure BufiGrantExpiry where
  validAfter : Option Number
  validUntil : Number
  deriving DecidableEq

/-- A grant; `allow` is the whole of its scope. -/
structure BufiGrant where
  allow : List BufiGrantScopeEntry
  budget : Option BufiGrantBudget
  expiry : BufiGrantExpiry
  requiredPaymaster : Option String
  deriving DecidableEq

/-- What `buildBufiGrant` throws; the last three are viem's. -/
inductive GrantError
  | noTarget
  | notAfter
  | invalidAddress (address : String)
  | integerOutOfRange
  | notInteger
  deriving DecidableEq

def GrantError.text : GrantError → Option String
  | noTarget => some "A BUFI grant must allow at least one target."
  | notAfter => some "A BUFI grant must expire after it becomes valid."
  | _ => none

/-! ### Encoders -/

def accessControlTypeWord : ContractAccessControlType → ℕ
  | .allowlist => 0
  | .denylist => 1
  | .allowAllAccess => 2

/-- The call of `ISessionKeyPermissionsUpdates` that an update is. -/
def encodeFunctionData : PermissionsUpdate → Bytes
  | .setAccessListType t => encodeCall selSetAccessListType [accessControlTypeWord t]
  | .updateAccessListAddressEntry c isOnList checkSelectors =>
    encodeCall selUpdateAccessListAddressEntry
      [c.toNat, Abi.boolWord isOnList, Abi.boolWord checkSelectors]
  | .updateAccessListFunctionEntry c selector isOnList =>
    encodeCall selUpdateAccessListFunctionEntry
      [c.toNat, Abi.bytes4Front selector, Abi.boolWord isOnList]
  | .updateTimeRange validAfter validUntil =>
    encodeCall selUpdateTimeRange [validAfter.toNat, validUntil.toNat]
  | .setNativeTokenSpendLimit spendLimit refreshInterval =>
    encodeCall selSetNativeTokenSpendLimit [spendLimit.toNat, refreshInterval.toNat]
  | .setERC20SpendLimit token spendLimit refreshInterval =>
    encodeCall selSetERC20SpendLimit [token.toNat, spendLimit.toNat, refreshInterval.toNat]
  | .setGasSpendLimit spendLimit refreshInterval =>
    encodeCall selSetGasSpendLimit [spendLimit.toNat, refreshInterval.toNat]
  | .setRequiredPaymaster requiredPaymaster =>
    encodeCall selSetRequiredPaymaster [requiredPaymaster.toNat]

/-- A big integer as a `uint`. -/
def encodeBigInt (n : ℕ) (x : ℤ) : Except GrantError (BitVec n) := do
  require (0 ≤ x ∧ x < 2 ^ n) .integerOutOfRange
  pure (BitVec.ofInt n x)

/-- A number as a `uint`; the range is checked before `BigInt(x)` is tried. -/
def encodeNumber (n : ℕ) (x : Number) : Except GrantError (BitVec n) := do
  require (¬ ((Number.ofInt (2 ^ n - 1)).lt x = true ∨ x.lt (.ofInt 0) = true)) .integerOutOfRange
  let value ← orRevert x.toInt? .notInteger
  pure (BitVec.ofInt n value)

section

variable (checksumAddress : String → String)

def encodeAddress (s : String) : Except GrantError Address := do
  require (isAddress checksumAddress s = true) (.invalidAddress s)
  orRevert (addressOf s) (.invalidAddress s)

def encodeSetAccessListType (t : ContractAccessControlType) : Bytes :=
  encodeFunctionData (.setAccessListType t)

def encodeUpdateAccessListAddressEntry (contractAddress : String) (isOnList checkSelectors : Bool) :
    Except GrantError Bytes := do
  let c ← encodeAddress checksumAddress contractAddress
  pure (encodeFunctionData (.updateAccessListAddressEntry c isOnList checkSelectors))

def encodeUpdateAccessListFunctionEntry (contractAddress : String) (selector : Bytes4)
    (isOnList : Bool) : Except GrantError Bytes := do
  let c ← encodeAddress checksumAddress contractAddress
  pure (encodeFunctionData (.updateAccessListFunctionEntry c selector isOnList))

def encodeUpdateTimeRange (validAfter validUntil : Number) : Except GrantError Bytes := do
  let after ← encodeNumber 48 validAfter
  let until' ← encodeNumber 48 validUntil
  pure (encodeFunctionData (.updateTimeRange after until'))

def encodeSetNativeTokenSpendLimit (b : BufiGrantSpendBudget) : Except GrantError Bytes := do
  let spendLimit ← encodeBigInt 256 b.limit
  let refreshInterval ← encodeNumber 48 b.refreshIntervalSeconds
  pure (encodeFunctionData (.setNativeTokenSpendLimit spendLimit refreshInterval))

def encodeSetERC20SpendLimit (b : BufiGrantErc20Budget) : Except GrantError Bytes := do
  let token ← encodeAddress checksumAddress b.token
  let spendLimit ← encodeBigInt 256 b.limit
  let refreshInterval ← encodeNumber 48 b.refreshIntervalSeconds
  pure (encodeFunctionData (.setERC20SpendLimit token spendLimit refreshInterval))

def encodeSetGasSpendLimit (b : BufiGrantSpendBudget) : Except GrantError Bytes := do
  let spendLimit ← encodeBigInt 256 b.limit
  let refreshInterval ← encodeNumber 48 b.refreshIntervalSeconds
  pure (encodeFunctionData (.setGasSpendLimit spendLimit refreshInterval))

def encodeSetRequiredPaymaster (requiredPaymaster : String) : Except GrantError Bytes := do
  let paymaster ← encodeAddress checksumAddress requiredPaymaster
  pure (encodeFunctionData (.setRequiredPaymaster paymaster))

/-- The address entry of a target, and an entry of each of its functions. -/
def encodeScopeEntry (entry : BufiGrantScopeEntry) : Except GrantError (List Bytes) := do
  let selectors := entry.selectors.getD []
  let address ← encodeUpdateAccessListAddressEntry checksumAddress entry.target true
    (decide (0 < selectors.length))
  let functions ← selectors.mapM (fun selector =>
    encodeUpdateAccessListFunctionEntry checksumAddress entry.target selector true)
  pure (address :: functions)

def buildBufiGrant (grant : BufiGrant) : Except GrantError (List Bytes) := do
  require (grant.allow.length ≠ 0) .noTarget
  let validAfter := grant.expiry.validAfter.getD (.ofNat 0)
  require (¬ grant.expiry.validUntil.le validAfter = true) .notAfter
  let scope ← grant.allow.mapM (encodeScopeEntry checksumAddress)
  let erc20 ← ((grant.budget.bind (·.erc20)).getD []).mapM
    (encodeSetERC20SpendLimit checksumAddress)
  let nativeLimit ← (grant.budget.bind (·.native)).toList.mapM encodeSetNativeTokenSpendLimit
  let gas ← (grant.budget.bind (·.gas)).toList.mapM encodeSetGasSpendLimit
  let timeRange ← encodeUpdateTimeRange validAfter grant.expiry.validUntil
  let paymaster ← (grant.requiredPaymaster.filter (· ≠ "")).toList.mapM
    (encodeSetRequiredPaymaster checksumAddress)
  pure (encodeSetAccessListType .allowlist :: scope.flatten ++ erc20 ++ nativeLimit ++ gas
    ++ timeRange :: paymaster)

end

/-! ### What an encoded update means -/

theorem selectorOf_encodeCall (selector : Bytes4) (args : List ℕ) :
    selectorOf (encodeCall selector args) = selector := by
  rw [selectorOf, encodeCall, List.append_assoc, List.take_left' (beBytes_length 4 _),
    beNat_beBytes, Nat.mod_eq_of_lt]
  · exact BitVec.eq_of_toNat_eq (by simp)
  · exact selector.isLt.trans_eq (by norm_num)

theorem decodeUpdate_encodeCall {selector : Bytes4} {args : List ℕ} {u : PermissionsUpdate}
    (h : decodeArguments selector (args.flatMap (beBytes 32)) = some (some u)) :
    decodeUpdate (encodeCall selector args) = .ok u := by
  have hdrop : (encodeCall selector args).drop 4 = args.flatMap (beBytes 32) := by
    rw [encodeCall, List.drop_left' (beBytes_length 4 _)]
  rw [decodeUpdate]
  simp only [selectorOf_encodeCall, hdrop, h, bind_eq_ok, require_eq_ok, exists_const,
    orRevert_eq_ok]
  exact ⟨by rw [encodeCall, List.length_append, beBytes_length]; omega, some u, rfl, rfl⟩

/-- **The plugin reads an update as it was written.** -/
theorem decodeUpdate_encodeFunctionData (u : PermissionsUpdate) :
    decodeUpdate (encodeFunctionData u) = .ok u := by
  cases u with
  | setAccessListType t =>
    cases t with
    | allowlist => rfl
    | denylist => rfl
    | allowAllAccess => rfl
  | updateAccessListAddressEntry c isOnList checkSelectors =>
    refine decodeUpdate_encodeCall ?_
    rw [decodeArguments, if_neg (by decide), if_pos rfl]
    simp only [List.flatMap_cons, Abi.address_front, Abi.bool_skip, Abi.bool_front]
    rfl
  | updateAccessListFunctionEntry c selector isOnList =>
    refine decodeUpdate_encodeCall ?_
    rw [decodeArguments, if_neg (by decide), if_neg (by decide), if_pos rfl]
    simp only [List.flatMap_cons, Abi.address_front, Abi.bytes4_skip, Abi.bytes4_front,
      Abi.bool_skip, Abi.bool_front]
    rfl
  | updateTimeRange validAfter validUntil =>
    refine decodeUpdate_encodeCall ?_
    rw [decodeArguments, if_neg (by decide), if_neg (by decide), if_neg (by decide), if_pos rfl]
    simp only [List.flatMap_cons, Abi.uint_skip, Abi.uint_front (show 48 ≤ 256 by decide)]
    rfl
  | setNativeTokenSpendLimit spendLimit refreshInterval =>
    refine decodeUpdate_encodeCall ?_
    rw [decodeArguments, if_neg (by decide), if_neg (by decide), if_neg (by decide),
      if_neg (by decide), if_pos rfl]
    simp only [List.flatMap_cons, Abi.word_front, Abi.uint_skip,
      Abi.uint_front (show 48 ≤ 256 by decide)]
    rfl
  | setERC20SpendLimit token spendLimit refreshInterval =>
    refine decodeUpdate_encodeCall ?_
    rw [decodeArguments, if_neg (by decide), if_neg (by decide), if_neg (by decide),
      if_neg (by decide), if_neg (by decide), if_pos rfl]
    simp only [List.flatMap_cons, Abi.address_front, Abi.word_skip, Abi.word_front, Abi.uint_skip,
      Abi.uint_front (show 48 ≤ 256 by decide)]
    rfl
  | setGasSpendLimit spendLimit refreshInterval =>
    refine decodeUpdate_encodeCall ?_
    rw [decodeArguments, if_neg (by decide), if_neg (by decide), if_neg (by decide),
      if_neg (by decide), if_neg (by decide), if_neg (by decide), if_pos rfl]
    simp only [List.flatMap_cons, Abi.word_front, Abi.uint_skip,
      Abi.uint_front (show 48 ≤ 256 by decide)]
    rfl
  | setRequiredPaymaster requiredPaymaster =>
    refine decodeUpdate_encodeCall ?_
    rw [decodeArguments, if_neg (by decide), if_neg (by decide), if_neg (by decide),
      if_neg (by decide), if_neg (by decide), if_neg (by decide), if_neg (by decide), if_pos rfl]
    simp only [List.flatMap_cons, Abi.address_front]
    rfl

/-- The updates of a compiled grant, performed one after another. -/
theorem updateAll_encode (timestamp : Uint256) (p : Permissions) (updates : List PermissionsUpdate) :
    p.updateAll timestamp (updates.map encodeFunctionData) =
      updates.foldlM (Permissions.perform timestamp) p := by
  rw [Permissions.updateAll, List.foldlM_map]
  congr 1
  funext q u
  rw [Permissions.update, decodeUpdate_encodeFunctionData]
  rfl

/-! ### The updates of a grant -/

theorem encodeBigInt_eq_ok {n : ℕ} {x : ℤ} {w : BitVec n} (h : encodeBigInt n x = .ok w) :
    x = w.toNat := by
  simp only [encodeBigInt, bind_eq_ok, require_eq_ok, exists_const, pure_eq_ok] at h
  obtain ⟨⟨hpos, hlt⟩, rfl⟩ := h
  have hmod : x % (2 ^ n : ℕ) = x := Int.emod_eq_of_lt hpos (by exact_mod_cast hlt)
  rw [BitVec.toNat_ofInt, hmod]
  omega

theorem encodeNumber_eq_ok {n : ℕ} {x : Number} {w : BitVec n} (h : encodeNumber n x = .ok w) :
    x = .ofNat w.toNat := by
  simp only [encodeNumber, bind_eq_ok, require_eq_ok, exists_const, orRevert_eq_ok,
    pure_eq_ok] at h
  obtain ⟨hrange, k, hk, rfl⟩ := h
  have hx : x = .ofInt k := Number.eq_ofInt_of_toInt? hk
  rw [hx, Number.lt_ofInt, Number.lt_ofInt, not_or, not_lt, not_lt] at hrange
  have hmod : k % (2 ^ n : ℕ) = k :=
    Int.emod_eq_of_lt hrange.2 (by push_cast; omega)
  rw [hx, BitVec.toNat_ofInt, hmod, Number.ofNat, Int.toNat_of_nonneg hrange.2]

theorem encodeAddress_eq_ok {checksumAddress : String → String} {s : String} {a : Address}
    (h : encodeAddress checksumAddress s = .ok a) : addressOf s = some a := by
  simp only [encodeAddress, bind_eq_ok, require_eq_ok, exists_const, orRevert_eq_ok] at h
  exact h.2

/-- The entry of a target of the grant, or of one of its functions. -/
inductive ScopeUpdate (grant : BufiGrant) : PermissionsUpdate → Prop
  | target {entry : BufiGrantScopeEntry} {c : Address} (hmem : entry ∈ grant.allow)
      (hc : addressOf entry.target = some c) :
      ScopeUpdate grant (.updateAccessListAddressEntry c true
        (decide (0 < (entry.selectors.getD []).length)))
  | function {entry : BufiGrantScopeEntry} {c : Address} {selector : Bytes4}
      (hmem : entry ∈ grant.allow) (hc : addressOf entry.target = some c)
      (hselector : selector ∈ entry.selectors.getD []) :
      ScopeUpdate grant (.updateAccessListFunctionEntry c selector true)

/-- The limit of a token of the grant. -/
structure Erc20Update (b : BufiGrantErc20Budget) (token : Address) (spendLimit : Uint256)
    (refreshInterval : Uint48) : Prop where
  token : addressOf b.token = some token
  limit : b.limit = spendLimit.toNat
  refreshInterval : refreshInterval.toNat = b.refreshIntervalSeconds.toNat

/-- Only the key's own data is written. -/
inductive KeyUpdate : PermissionsUpdate → Prop
  | native {spendLimit : Uint256} {refreshInterval : Uint48} :
      KeyUpdate (.setNativeTokenSpendLimit spendLimit refreshInterval)
  | gas {spendLimit : Uint256} {refreshInterval : Uint48} :
      KeyUpdate (.setGasSpendLimit spendLimit refreshInterval)
  | timeRange {validAfter validUntil : Uint48} : KeyUpdate (.updateTimeRange validAfter validUntil)
  | paymaster {requiredPaymaster : Address} : KeyUpdate (.setRequiredPaymaster requiredPaymaster)

theorem exists_updates {P : PermissionsUpdate → Prop} {l : List Bytes}
    (h : ∀ x ∈ l, ∃ u, x = encodeFunctionData u ∧ P u) :
    ∃ us : List PermissionsUpdate, l = us.map encodeFunctionData ∧ ∀ u ∈ us, P u := by
  induction l with
  | nil => exact ⟨[], rfl, fun u hu => absurd hu List.not_mem_nil⟩
  | cons x l ih =>
    obtain ⟨u, rfl, hu⟩ := h x List.mem_cons_self
    obtain ⟨us, rfl, hus⟩ := ih (fun y hy => h y (List.mem_cons_of_mem _ hy))
    exact ⟨u :: us, rfl, List.forall_mem_cons.mpr ⟨hu, hus⟩⟩

section

variable {checksumAddress : String → String} {grant : BufiGrant}

theorem encodeScopeEntry_eq_ok {entry : BufiGrantScopeEntry} {l : List Bytes}
    (hmem : entry ∈ grant.allow) (h : encodeScopeEntry checksumAddress entry = .ok l) :
    ∀ x ∈ l, ∃ u, x = encodeFunctionData u ∧ ScopeUpdate grant u := by
  simp only [encodeScopeEntry, encodeUpdateAccessListAddressEntry, bind_eq_ok, pure_eq_ok] at h
  obtain ⟨address, ⟨c, hc, rfl⟩, functions, hfunctions, rfl⟩ := h
  have hc := encodeAddress_eq_ok hc
  intro x hx
  rcases List.mem_cons.mp hx with rfl | hx
  · exact ⟨_, rfl, .target hmem hc⟩
  · obtain ⟨selector, hselector, hx⟩ := mapM_right hfunctions hx
    simp only [encodeUpdateAccessListFunctionEntry, bind_eq_ok, pure_eq_ok] at hx
    obtain ⟨c', hc', rfl⟩ := hx
    exact ⟨_, rfl, .function hmem (encodeAddress_eq_ok hc') hselector⟩

theorem encodeSetERC20SpendLimit_eq_ok {b : BufiGrantErc20Budget} {x : Bytes}
    (h : encodeSetERC20SpendLimit checksumAddress b = .ok x) :
    ∃ token spendLimit refreshInterval,
      x = encodeFunctionData (.setERC20SpendLimit token spendLimit refreshInterval)
        ∧ Erc20Update b token spendLimit refreshInterval := by
  simp only [encodeSetERC20SpendLimit, bind_eq_ok, pure_eq_ok] at h
  obtain ⟨token, htoken, spendLimit, hlimit, refreshInterval, hinterval, rfl⟩ := h
  refine ⟨token, spendLimit, refreshInterval, rfl, encodeAddress_eq_ok htoken,
    encodeBigInt_eq_ok hlimit, ?_⟩
  rw [encodeNumber_eq_ok hinterval, Number.toNat_ofNat]

/-- **What a grant is compiled to**: the list is an allowlist, then come the entries of
the scope, the limits of the tokens, and what concerns the key alone. -/
theorem buildBufiGrant_eq_ok {updates : List Bytes}
    (h : buildBufiGrant checksumAddress grant = .ok updates) :
    ∃ (scope : List PermissionsUpdate) (erc20 : List Bytes) (key : List PermissionsUpdate),
      updates = encodeFunctionData (.setAccessListType .allowlist)
        :: scope.map encodeFunctionData ++ erc20 ++ key.map encodeFunctionData
      ∧ (∀ u ∈ scope, ScopeUpdate grant u)
      ∧ ((grant.budget.bind (·.erc20)).getD []).mapM (encodeSetERC20SpendLimit checksumAddress)
        = .ok erc20
      ∧ ∀ u ∈ key, KeyUpdate u := by
  simp only [buildBufiGrant, bind_eq_ok, require_eq_ok, exists_const, pure_eq_ok] at h
  obtain ⟨-, -, scope, hscope, erc20, herc20, nativeLimit, hnative, gas, hgas, timeRange, htimeRange,
    paymaster, hpaymaster, rfl⟩ := h
  obtain ⟨scope', hscope', hs⟩ : ∃ us : List PermissionsUpdate,
      scope.flatten = us.map encodeFunctionData
      ∧ ∀ u ∈ us, ScopeUpdate grant u := by
    refine exists_updates (fun x hx => ?_)
    obtain ⟨l, hl, hx⟩ := List.mem_flatten.mp hx
    obtain ⟨entry, hentry, hl⟩ := mapM_right hscope hl
    exact encodeScopeEntry_eq_ok hentry hl x hx
  obtain ⟨key, hkey, hk⟩ : ∃ us : List PermissionsUpdate,
      nativeLimit ++ gas ++ timeRange :: paymaster = us.map encodeFunctionData ∧ ∀ u ∈ us, KeyUpdate u := by
    refine exists_updates (fun x hx => ?_)
    rcases List.mem_append.mp hx with hx | hx
    · rcases List.mem_append.mp hx with hx | hx
      · obtain ⟨b, -, hx⟩ := mapM_right hnative hx
        simp only [encodeSetNativeTokenSpendLimit, bind_eq_ok, pure_eq_ok] at hx
        obtain ⟨_, -, _, -, rfl⟩ := hx
        exact ⟨_, rfl, .native⟩
      · obtain ⟨b, -, hx⟩ := mapM_right hgas hx
        simp only [encodeSetGasSpendLimit, bind_eq_ok, pure_eq_ok] at hx
        obtain ⟨_, -, _, -, rfl⟩ := hx
        exact ⟨_, rfl, .gas⟩
    · rcases List.mem_cons.mp hx with rfl | hx
      · simp only [encodeUpdateTimeRange, bind_eq_ok, pure_eq_ok] at htimeRange
        obtain ⟨_, -, _, -, rfl⟩ := htimeRange
        exact ⟨_, rfl, .timeRange⟩
      · obtain ⟨s, -, hx⟩ := mapM_right hpaymaster hx
        simp only [encodeSetRequiredPaymaster, bind_eq_ok, pure_eq_ok] at hx
        obtain ⟨_, -, rfl⟩ := hx
        exact ⟨_, rfl, .paymaster⟩
  refine ⟨scope', erc20, key, ?_, hs, herc20, hk⟩
  rw [encodeSetAccessListType, hscope', ← hkey]
  simp only [List.append_assoc, List.cons_append]

end

end Bufi.Grant
