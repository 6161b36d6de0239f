import Bufi.Grant.Compile
import Bufi.Session.History

/-!
# The meaning of a grant

A grant says which calls are allowed, which limits there are, and when the key is
valid.  `CompilesMeaning` is that the permissions of a new key say the same after the
updates of the compiled grant, in whatever order the entries of the scope are given.

`BufiGrant.Exact` is when they do (`compilesMeaning_iff`).  Entries of one target must
be of one kind, with selectors or without: the flags of the last one replace those
before.  A token with a budget must not be allowed as a whole, since the plugin does
not look at its selectors then.  A limit of `2 ^ 256 - 1` is not enabled, and the native
token has a limit of zero if the grant does not set another.
-/

namespace Bufi.Grant

open Bufi.Evm Bufi.Js Bufi.Session

/-! ### What a grant says -/

namespace BufiGrant

/-- The token of a budget. -/
def Budgeted (grant : BufiGrant) (c : Address) : Prop :=
  ∃ b ∈ grant.erc20, addressOf b.token = some c

/-- An entry names the target, and lists no selectors or this one; of a token with a
budget only `transfer` and `approve`. -/
def Allows (grant : BufiGrant) (c : Address) (selector : Bytes4) : Prop :=
  (∃ entry ∈ grant.allow, addressOf entry.target = some c ∧
    (entry.functions = [] ∨ selector ∈ entry.functions)) ∧
  (grant.Budgeted c → isAllowedERC20Function selector = true)

/-- The grants that are compiled to what they say. -/
structure Exact (grant : BufiGrant) : Prop where
  oneKind : ∀ e ∈ grant.allow, ∀ e' ∈ grant.allow, ∀ c, addressOf e.target = some c →
    addressOf e'.target = some c → e.functions = [] → e'.functions = []
  listed : ∀ e ∈ grant.allow, ∀ c, addressOf e.target = some c → grant.Budgeted c →
    e.functions ≠ []
  tokens : ∀ b ∈ grant.erc20, addressOf b.token ≠ some 0
  limits : ∀ b ∈ grant.erc20, b.limit ≠ 2 ^ 256 - 1
  oneLimit : ∀ b ∈ grant.erc20, ∀ b' ∈ grant.erc20, ∀ c, addressOf b.token = some c →
    addressOf b'.token = some c →
    b.limit = b'.limit ∧ b.refreshIntervalSeconds = b'.refreshIntervalSeconds
  native : ∃ b ∈ grant.nativeLimit, b.limit ≠ 2 ^ 256 - 1
  gas : ∀ b ∈ grant.gasLimit, b.limit ≠ 2 ^ 256 - 1

end BufiGrant

/-- The limit has the amount and the interval of the budget, and nothing is used of it. -/
structure BufiGrantSpendBudget.LimitIs (b : BufiGrantSpendBudget) (limit : Budget) : Prop where
  amount : b.limit = limit.2.limitAmount.toNat
  interval : b.refreshIntervalSeconds = .ofNat limit.1.refreshInterval.toNat
  unused : limit.2.limitUsed = 0

section

variable {W S : Type} (K : Keccak W) (account : Address) (id : Bytes32)

/-- What is stored under a key id says what the grant says. -/
structure Meaning (grant : BufiGrant) (s : State W S) : Prop where
  scope : ∀ target data, Accepts K s account id target data ↔
    grant.Allows target (selectorOf data)
  tokens : ∀ c, (s.contractDataOf K account id c).isERC20WithSpendLimit = true ↔ grant.Budgeted c
  tokenLimits : ∀ b ∈ grant.erc20, ∀ c, addressOf b.token = some c →
    b.LimitIs (s.contractDataOf K account id c).budget
  native : (s.sessionKeyDataOf K account id).nativeTokenSpendLimitBypassed = false ↔
    grant.nativeLimit.isSome
  nativeLimit : ∀ b ∈ grant.nativeLimit, b.LimitIs (s.sessionKeyDataOf K account id).nativeBudget
  gas : (s.sessionKeyDataOf K account id).hasGasLimit = true ↔ grant.gasLimit.isSome
  gasLimit : ∀ b ∈ grant.gasLimit, b.LimitIs (s.sessionKeyDataOf K account id).gasBudget
  validAfter : grant.validAfter = .ofNat (s.sessionKeyDataOf K account id).validAfter.toNat
  validUntil : grant.expiry.validUntil = .ofNat (s.sessionKeyDataOf K account id).validUntil.toNat

end

section

variable {W S : Type} [DecidableEq W] (E : Env W S) (checksumAddress : String → String)
  (timestamp : Uint256) (account key : Address)

/-- The grant is compiled, and its updates are performed on the key. -/
def Installs (grant : BufiGrant) (s s' : State W S) : Prop :=
  ∃ updates, buildBufiGrant checksumAddress grant = .ok updates ∧
    updateKeyPermissions E timestamp account s key updates = .ok s'

/-- The key has the permissions the grant means, whatever the order of its entries. -/
def CompilesMeaning (grant : BufiGrant) (s : State W S) : Prop :=
  ∃ s', Installs E checksumAddress timestamp account key grant s s' ∧
    Meaning E.keccak account (s.sessionKeyIdOf E.keccak account key) grant s' ∧
    ∀ allow', allow'.Perm grant.allow →
      ∃ s'', Installs E checksumAddress timestamp account key { grant with allow := allow' } s s'' ∧
        s''.permissionsOf E.keccak account (s.sessionKeyIdOf E.keccak account key) =
          s'.permissionsOf E.keccak account (s.sessionKeyIdOf E.keccak account key)

end

/-! ### The permissions of a compiled grant -/

theorem limitWord_eq_allOnes {b : BufiGrantSpendBudget} (h : b.Encodes) :
    b.limitWord = BitVec.allOnes 256 ↔ b.limit = 2 ^ 256 - 1 := by
  have hmax : ((BitVec.allOnes 256).toNat : ℤ) = 2 ^ 256 - 1 := by
    rw [BitVec.toNat_allOnes]
    norm_num
  rw [h.limit, ← hmax, Nat.cast_inj]
  exact ⟨fun he => by rw [he], fun he => BitVec.eq_of_toNat_eq he⟩

theorem Limited.limitIs {b : BufiGrantSpendBudget} {limit : Budget} (h : Limited b true limit)
    (hencodes : b.Encodes) : b.LimitIs limit where
  amount := by rw [h.amount rfl]; exact hencodes.limit
  interval := by rw [h.interval rfl]; exact hencodes.interval
  unused := h.unused

/-- The permissions of a new key after the updates of a grant. -/
structure GrantState (grant : BufiGrant) (timestamp : Uint256) (p : Permissions) : Prop where
  key : p.key = grantKey grant timestamp .default
  functions : ∀ c selector, (p.functions c selector).isOnList = true ↔
    ∃ entry ∈ grant.allow, entry.address = c ∧ selector ∈ entry.functions
  isOnList : ∀ c, (p.contracts c).isOnList = (lastEntry grant.allow c).isSome
  checkSelectors : ∀ c, ∀ entry ∈ lastEntry grant.allow c,
    (p.contracts c).checkSelectors = decide (0 < entry.functions.length)
  unlimited : ∀ c, lastBudget grant.erc20 c = none →
    (p.contracts c).isERC20WithSpendLimit = false
  limited : ∀ c, ∀ b ∈ lastBudget grant.erc20 c,
    Limited b.toBufiGrantSpendBudget (p.contracts c).isERC20WithSpendLimit (p.contracts c).budget
  tokens : ∀ b ∈ grant.erc20, b.address ≠ 0

/-- What the updates are performed to. -/
theorem updateAll_updates (grant : BufiGrant) (timestamp : Uint256) :
    Permissions.default.updateAll timestamp (grant.updates.map encodeFunctionData) =
      (grant.erc20.map BufiGrantErc20Budget.update).foldlM (Permissions.perform timestamp)
        (applyScope .default grant.allow) >>= fun q =>
          .ok (q.mapKey (grantKey grant timestamp)) := by
  have hkey : (fun q => grant.keyUpdates.foldlM (Permissions.perform timestamp) q) =
      fun q => .ok (q.mapKey (grantKey grant timestamp)) :=
    funext (foldlM_keyUpdates grant timestamp)
  rw [updateAll_encode, BufiGrant.updates, List.foldlM_append, hkey, List.foldlM_append,
    List.foldlM_cons]
  have hstart : Permissions.default.perform timestamp (.setAccessListType .allowlist) =
      .ok .default := rfl
  rw [hstart, ok_bind, foldlM_scope, ok_bind]

theorem limitUsed_applyScope (allow : List BufiGrantScopeEntry) (c : Address) :
    ((applyScope .default allow).contracts c).budget.2.limitUsed = 0 := by
  rw [contracts_applyScope]
  cases lastEntry allow c with
  | none => rfl
  | some entry => rfl

theorem grantState_of_updateAll {grant : BufiGrant} {timestamp : Uint256} {p : Permissions}
    (h : Permissions.default.updateAll timestamp (grant.updates.map encodeFunctionData) = .ok p) :
    GrantState grant timestamp p := by
  rw [updateAll_updates, bind_eq_ok] at h
  obtain ⟨q, hq, hp⟩ := h
  obtain rfl := Except.ok.inj hp
  obtain ⟨htokens, hkey, hfunctions, hstate⟩ :=
    foldlM_erc20 (limitUsed_applyScope grant.allow) hq
  refine ⟨?_, ?_, ?_, ?_, ?_, ?_, htokens⟩
  · show grantKey grant timestamp q.key = _
    rw [hkey, key_applyScope]
    rfl
  · intro c selector
    show (q.functions c selector).isOnList = true ↔ _
    rw [hfunctions, functions_applyScope]
    split
    · rename_i hex
      exact iff_of_true rfl hex
    · rename_i hex
      exact iff_of_false Bool.false_ne_true hex
  · intro c
    show (q.contracts c).isOnList = _
    rw [(hstate c).isOnList, contracts_applyScope]
    cases lastEntry grant.allow c with
    | none => rfl
    | some entry => rfl
  · intro c entry hentry
    show (q.contracts c).checkSelectors = _
    rw [(hstate c).checkSelectors, contracts_applyScope, Option.mem_def.mp hentry]
    rfl
  · intro c hnone
    show (q.contracts c).isERC20WithSpendLimit = _
    rw [(hstate c).unlimited hnone, contracts_applyScope]
    cases lastEntry grant.allow c with
    | none => rfl
    | some entry => rfl
  · intro c b hb
    exact (hstate c).limited b hb

/-- The paymaster is of no account to the limits and the time range. -/
theorem limits_setRequiredPaymaster (d : SessionKeyData) (o : Option String) :
    let d' := o.elim d (fun s => d.setRequiredPaymaster ((addressOf s).getD 0))
    d'.contractAccessControlType = d.contractAccessControlType ∧
      d'.nativeTokenSpendLimitBypassed = d.nativeTokenSpendLimitBypassed ∧
      d'.nativeBudget = d.nativeBudget ∧ d'.hasGasLimit = d.hasGasLimit ∧
      d'.gasBudget = d.gasBudget ∧ d'.validAfter = d.validAfter ∧
      d'.validUntil = d.validUntil := by
  cases o with
  | none => exact ⟨rfl, rfl, rfl, rfl, rfl, rfl, rfl⟩
  | some s =>
    simp only [Option.elim_some, SessionKeyData.setRequiredPaymaster]
    split
    · exact ⟨rfl, rfl, rfl, rfl, rfl, rfl, rfl⟩
    · exact ⟨rfl, rfl, rfl, rfl, rfl, rfl, rfl⟩

/-- The key's own data of a compiled grant. -/
structure KeyState (grant : BufiGrant) (d : SessionKeyData) : Prop where
  accessType : d.contractAccessControlType = .allowlist
  nativeDefault : grant.nativeLimit = none → d.nativeTokenSpendLimitBypassed = false
  native : ∀ b ∈ grant.nativeLimit, Limited b (!d.nativeTokenSpendLimitBypassed) d.nativeBudget
  gasDefault : grant.gasLimit = none → d.hasGasLimit = false
  gas : ∀ b ∈ grant.gasLimit, Limited b d.hasGasLimit d.gasBudget
  validAfter : d.validAfter = BitVec.ofNat 48 grant.validAfter.toNat
  validUntil : d.validUntil = BitVec.ofNat 48 grant.expiry.validUntil.toNat

theorem keyState_grantKey (grant : BufiGrant) (timestamp : Uint256) :
    KeyState grant (grantKey grant timestamp .default) := by
  -- the limits one after the other, from the data of a new key
  generalize hd₁ : grant.nativeLimit.elim SessionKeyData.default (fun b =>
    SessionKeyData.default.setNativeTokenSpendLimit timestamp b.limitWord b.intervalWord) = d₁
  generalize hd₂ : grant.gasLimit.elim d₁ (fun b =>
    d₁.setGasSpendLimit timestamp b.limitWord b.intervalWord) = d₂
  have hkey : grantKey grant timestamp .default =
      (grant.requiredPaymaster.filter (· ≠ "")).elim (d₂.updateTimeRange
        (BitVec.ofNat 48 grant.validAfter.toNat)
        (BitVec.ofNat 48 grant.expiry.validUntil.toNat)) (fun s =>
          (d₂.updateTimeRange (BitVec.ofNat 48 grant.validAfter.toNat)
            (BitVec.ofNat 48 grant.expiry.validUntil.toNat)).setRequiredPaymaster
              ((addressOf s).getD 0)) := by
    rw [← hd₂, ← hd₁]
    rfl
  have hone : d₁.contractAccessControlType = .allowlist ∧ d₁.hasGasLimit = false ∧
      d₁.gasBudget = .default ∧
      (grant.nativeLimit = none → d₁.nativeTokenSpendLimitBypassed = false) ∧
      ∀ b ∈ grant.nativeLimit, Limited b (!d₁.nativeTokenSpendLimitBypassed) d₁.nativeBudget := by
    rw [← hd₁]
    cases grant.nativeLimit with
    | none => exact ⟨rfl, rfl, rfl, fun _ => rfl, fun b hb => absurd hb (Option.not_mem_none b)⟩
    | some b =>
      refine ⟨rfl, rfl, rfl, fun h => absurd h (Option.some_ne_none b), ?_⟩
      intro b' hb'
      rw [Option.mem_some_iff] at hb'
      rw [← hb', Option.elim_some, SessionKeyData.setNativeTokenSpendLimit]
      simp only [Bool.not_not]
      exact limited_updateSpendLimits b rfl timestamp
  obtain ⟨htype, hnogas, hgasBudget, hdefault, hlimited⟩ := hone
  have htwo : d₂.contractAccessControlType = .allowlist ∧
      d₂.nativeTokenSpendLimitBypassed = d₁.nativeTokenSpendLimitBypassed ∧
      d₂.nativeBudget = d₁.nativeBudget ∧ (grant.gasLimit = none → d₂.hasGasLimit = false) ∧
      ∀ b ∈ grant.gasLimit, Limited b d₂.hasGasLimit d₂.gasBudget := by
    rw [← hd₂]
    cases grant.gasLimit with
    | none =>
      exact ⟨htype, rfl, rfl, fun _ => hnogas, fun b hb => absurd hb (Option.not_mem_none b)⟩
    | some b =>
      refine ⟨htype, rfl, rfl, fun h => absurd h (Option.some_ne_none b), ?_⟩
      intro b' hb'
      rw [Option.mem_some_iff] at hb'
      rw [← hb']
      exact limited_updateSpendLimits b (by rw [hgasBudget]; rfl) timestamp
  obtain ⟨htype₂, hflag, hbudget, hgasDefault, hgas⟩ := htwo
  obtain ⟨ht, hn, hnb, hg, hgb, ha, hu⟩ := limits_setRequiredPaymaster (d₂.updateTimeRange
    (BitVec.ofNat 48 grant.validAfter.toNat) (BitVec.ofNat 48 grant.expiry.validUntil.toNat))
    (grant.requiredPaymaster.filter (· ≠ ""))
  rw [hkey]
  refine ⟨ht.trans htype₂, ?_, ?_, ?_, ?_, ha, hu⟩
  · intro hnone
    exact hn.trans (hflag.trans (hdefault hnone))
  · intro b hb
    rw [hn, hnb]
    show Limited b (!d₂.nativeTokenSpendLimitBypassed) d₂.nativeBudget
    rw [hflag, hbudget]
    exact hlimited b hb
  · intro hnone
    exact hg.trans (hgasDefault hnone)
  · intro b hb
    rw [hg, hgb]
    exact hgas b hb

/-! ### Exact grants -/

theorem address_iff {grant : BufiGrant} (h : grant.WellFormed) {entry : BufiGrantScopeEntry}
    (hmem : entry ∈ grant.allow) {c : Address} :
    addressOf entry.target = some c ↔ entry.address = c := by
  rw [h.targets entry hmem, Option.some.injEq]

theorem token_iff {grant : BufiGrant} (h : grant.WellFormed) {b : BufiGrantErc20Budget}
    (hmem : b ∈ grant.erc20) {c : Address} : addressOf b.token = some c ↔ b.address = c := by
  rw [h.tokens b hmem, Option.some.injEq]

/-- A token has a last budget if it has one. -/
theorem budgeted_iff {grant : BufiGrant} (h : grant.WellFormed) {c : Address} :
    grant.Budgeted c ↔ ∃ b, lastBudget grant.erc20 c = some b := by
  constructor
  · rintro ⟨b, hb, hc⟩
    refine Option.ne_none_iff_exists'.mp ?_
    intro hnone
    exact lastWith_eq_none.mp hnone b hb ((token_iff h hb).mp hc)
  · rintro ⟨b, hb⟩
    obtain ⟨hmem, hc⟩ := lastWith_eq_some hb
    exact ⟨b, hmem, (token_iff h hmem).mpr hc⟩

section

variable {W S : Type} {K : Keccak W} {s : State W S} {account : Address} {id : Bytes32}
  {grant : BufiGrant} {timestamp : Uint256}

/-- Which calls are accepted from an allowlist. -/
theorem accepts_allowlist {target : Address} {data : Bytes}
    (h : (s.sessionKeyDataOf K account id).contractAccessControlType = .allowlist) :
    Accepts K s account id target data ↔
      (s.contractDataOf K account id target).isOnList = true ∧
        ((s.contractDataOf K account id target).checkSelectors = false ∨
          ((s.functionDataOf K account id target (selectorOf data)).isOnList = true ∧
            ((s.contractDataOf K account id target).isERC20WithSpendLimit = true →
              isAllowedERC20Function (selectorOf data) = true))) := by
  simp only [Accepts, checkCallPermissions, h, checkERC20Selector]
  cases (s.contractDataOf K account id target).isOnList <;>
    cases (s.contractDataOf K account id target).checkSelectors <;>
    cases (s.contractDataOf K account id target).isERC20WithSpendLimit <;>
    cases isAllowedERC20Function (selectorOf data) <;> simp

/-- What is stored for a token of an exact grant. -/
theorem tokens_of_exact (hwell : grant.WellFormed) (hexact : grant.Exact)
    (h : GrantState grant timestamp (s.permissionsOf K account id)) (c : Address) :
    ((s.contractDataOf K account id c).isERC20WithSpendLimit = true ↔ grant.Budgeted c) ∧
      ∀ b ∈ grant.erc20, addressOf b.token = some c →
        b.LimitIs (s.contractDataOf K account id c).budget := by
  have hlimited := h.limited c
  have hunlimited := h.unlimited c
  change ∀ b ∈ lastBudget grant.erc20 c, Limited b.toBufiGrantSpendBudget
    (s.contractDataOf K account id c).isERC20WithSpendLimit
    (s.contractDataOf K account id c).budget at hlimited
  change _ → (s.contractDataOf K account id c).isERC20WithSpendLimit = false at hunlimited
  rw [budgeted_iff hwell]
  cases hlast : lastBudget grant.erc20 c with
  | none =>
    rw [hunlimited hlast]
    refine ⟨iff_of_false Bool.false_ne_true (by rintro ⟨b, hb⟩; cases hb), ?_⟩
    intro b hb hc
    exact absurd ((token_iff hwell hb).mp hc) (lastWith_eq_none.mp hlast b hb)
  | some b =>
    obtain ⟨hmem, hc⟩ := lastWith_eq_some hlast
    have hb := hlimited b hlast
    have henabled : (s.contractDataOf K account id c).isERC20WithSpendLimit = true := by
      rw [hb.enabled, Ne, limitWord_eq_allOnes (hwell.erc20 b hmem)]
      exact hexact.limits b hmem
    rw [henabled] at hb ⊢
    refine ⟨iff_of_true rfl ⟨b, rfl⟩, ?_⟩
    intro b' hb' hc'
    have hsame := hexact.oneLimit b' hb' b hmem c hc' ((token_iff hwell hmem).mpr hc)
    have his := hb.limitIs (hwell.erc20 b hmem)
    exact ⟨hsame.1.trans his.amount, hsame.2.trans his.interval, his.unused⟩

theorem scope_of_exact (hwell : grant.WellFormed) (hexact : grant.Exact)
    (h : GrantState grant timestamp (s.permissionsOf K account id)) (c : Address) (data : Bytes) :
    Accepts K s account id c data ↔ grant.Allows c (selectorOf data) := by
  have htype : (s.sessionKeyDataOf K account id).contractAccessControlType = .allowlist := by
    rw [show s.sessionKeyDataOf K account id = grantKey grant timestamp .default from h.key]
    exact (keyState_grantKey grant timestamp).accessType
  have hlist : (s.contractDataOf K account id c).isOnList = (lastEntry grant.allow c).isSome :=
    h.isOnList c
  have hfunctions := h.functions c (selectorOf data)
  change (s.functionDataOf K account id c (selectorOf data)).isOnList = true ↔ _ at hfunctions
  rw [accepts_allowlist htype, hlist, hfunctions, (tokens_of_exact hwell hexact h c).1]
  cases hlast : lastEntry grant.allow c with
  | none =>
    refine iff_of_false (fun hand => Bool.false_ne_true hand.1) ?_
    rintro ⟨⟨entry, hmem, hc, -⟩, -⟩
    exact lastWith_eq_none.mp hlast entry hmem ((address_iff hwell hmem).mp hc)
  | some last =>
    obtain ⟨hlastMem, hlastAddr⟩ := lastWith_eq_some hlast
    have hlastName := (address_iff hwell hlastMem).mpr hlastAddr
    have hcheck : (s.contractDataOf K account id c).checkSelectors =
        decide (0 < last.functions.length) := h.checkSelectors c last hlast
    rw [hcheck]
    by_cases hnil : last.functions = []
    · refine iff_of_true ⟨rfl, .inl (by rw [hnil]; rfl)⟩ ⟨⟨last, hlastMem, hlastName, .inl hnil⟩, ?_⟩
      intro hbudget
      exact absurd hnil (hexact.listed last hlastMem c hlastName hbudget)
    · have hpos : 0 < last.functions.length := List.length_pos_iff.mpr hnil
      rw [decide_eq_true hpos]
      constructor
      · rintro ⟨-, hfalse | ⟨⟨entry, hmem, haddr, hsel⟩, hallowed⟩⟩
        · cases hfalse
        · exact ⟨⟨entry, hmem, (address_iff hwell hmem).mpr haddr, .inr hsel⟩, hallowed⟩
      · rintro ⟨⟨entry, hmem, hname, hcase⟩, hallowed⟩
        refine ⟨rfl, .inr ⟨⟨entry, hmem, (address_iff hwell hmem).mp hname, ?_⟩, hallowed⟩⟩
        rcases hcase with hempty | hsel
        · exact absurd (hexact.oneKind entry hmem last hlastMem c hname hlastName hempty) hnil
        · exact hsel

theorem meaning_of_exact (hwell : grant.WellFormed) (hexact : grant.Exact)
    (h : GrantState grant timestamp (s.permissionsOf K account id)) :
    Meaning K account id grant s := by
  have hkey : KeyState grant (s.sessionKeyDataOf K account id) := by
    rw [show s.sessionKeyDataOf K account id = grantKey grant timestamp .default from h.key]
    exact keyState_grantKey grant timestamp
  obtain ⟨n, hn, hnmax⟩ := hexact.native
  have hnative := hkey.native n hn
  have hnenabled : (!(s.sessionKeyDataOf K account id).nativeTokenSpendLimitBypassed) = true := by
    rw [hnative.enabled, Ne, limitWord_eq_allOnes (hwell.native n hn)]
    exact hnmax
  rw [hnenabled] at hnative
  refine ⟨scope_of_exact hwell hexact h, fun c => (tokens_of_exact hwell hexact h c).1,
    fun b hb c hc => (tokens_of_exact hwell hexact h c).2 b hb hc, ?_, ?_, ?_, ?_, ?_, ?_⟩
  · refine iff_of_true (by simpa using hnenabled) ?_
    rw [Option.mem_def.mp hn]
    rfl
  · intro b hb
    obtain rfl : b = n := Option.mem_unique hb hn
    exact hnative.limitIs (hwell.native b hn)
  · cases hgas : grant.gasLimit with
    | none => exact iff_of_false (by rw [hkey.gasDefault hgas]; decide) (by simp)
    | some b =>
      refine iff_of_true ?_ rfl
      rw [(hkey.gas b hgas).enabled, Ne, limitWord_eq_allOnes (hwell.gas b hgas)]
      exact hexact.gas b hgas
  · intro b hb
    have hgas := hkey.gas b hb
    have henabled : (s.sessionKeyDataOf K account id).hasGasLimit = true := by
      rw [hgas.enabled, Ne, limitWord_eq_allOnes (hwell.gas b hb)]
      exact hexact.gas b hb
    rw [henabled] at hgas
    exact hgas.limitIs (hwell.gas b hb)
  · rw [hkey.validAfter]
    exact hwell.validAfter
  · rw [hkey.validUntil]
    exact hwell.validUntil

end

/-! ### The order of the entries -/

/-- Entries of one kind for each target may stand in any order. -/
theorem applyScope_perm {allow allow' : List BufiGrantScopeEntry} (hperm : allow'.Perm allow)
    (hkind : ∀ e ∈ allow, ∀ e' ∈ allow, e.address = e'.address → e.functions = [] →
      e'.functions = []) (p : Permissions) : applyScope p allow' = applyScope p allow := by
  refine Permissions.ext ?_ (funext fun x => ?_) (funext fun x => funext fun selector => ?_)
  · rw [key_applyScope, key_applyScope]
  · rw [contracts_applyScope, contracts_applyScope]
    cases hlast : lastEntry allow x with
    | none =>
      have hnone : lastEntry allow' x = none :=
        lastWith_eq_none.mpr (fun e he => lastWith_eq_none.mp hlast e (hperm.mem_iff.mp he))
      rw [hnone]
    | some e =>
      obtain ⟨hmem, haddr⟩ := lastWith_eq_some hlast
      have hsome : lastEntry allow' x ≠ none :=
        fun hnone => lastWith_eq_none.mp hnone e (hperm.mem_iff.mpr hmem) haddr
      obtain ⟨e', hlast'⟩ := Option.ne_none_iff_exists'.mp hsome
      obtain ⟨hmem', haddr'⟩ := lastWith_eq_some hlast'
      have hmem' := hperm.mem_iff.mp hmem'
      have hsame : e'.functions = [] ↔ e.functions = [] :=
        ⟨hkind e' hmem' e hmem (haddr'.trans haddr.symm),
          hkind e hmem e' hmem' (haddr.trans haddr'.symm)⟩
      rw [hlast', Option.elim_some, Option.elim_some, decide_eq_decide.mpr]
      rw [List.length_pos_iff, List.length_pos_iff, Ne, Ne, hsame]
  · rw [functions_applyScope, functions_applyScope]
    simp only [hperm.mem_iff]

/-- Any entry can be made the last one. -/
theorem exists_perm_last {allow : List BufiGrantScopeEntry} {e : BufiGrantScopeEntry}
    (he : e ∈ allow) : ∃ allow', allow'.Perm allow ∧ lastEntry allow' e.address = some e := by
  refine ⟨allow.erase e ++ [e], ?_, ?_⟩
  · exact (List.perm_append_singleton e _).trans (List.perm_cons_erase he).symm
  · rw [lastEntry, lastWith_concat, if_pos rfl]

theorem exists_build_perm {checksumAddress : String → String} {grant : BufiGrant}
    {updates : List Bytes} (h : buildBufiGrant checksumAddress grant = .ok updates)
    {allow' : List BufiGrantScopeEntry} (hperm : allow'.Perm grant.allow) :
    ∃ updates', buildBufiGrant checksumAddress { grant with allow := allow' } = .ok updates' := by
  simp only [buildBufiGrant, bind_eq_ok, require_eq_ok, exists_const, pure_eq_ok] at h ⊢
  obtain ⟨hlen, hexpiry, scope, hscope, rest⟩ := h
  have hall := exists_mapM.mp ⟨scope, hscope⟩
  obtain ⟨scope', hscope'⟩ := exists_mapM.mpr (fun e he => hall e (hperm.mem_iff.mp he))
  obtain ⟨erc20, herc20, nativeLimit, hnative, gas, hgas, timeRange, htime, paymaster, hpaymaster,
    -⟩ := rest
  exact ⟨_, by rw [hperm.length_eq]; exact hlen, hexpiry, scope', hscope', erc20, herc20,
    nativeLimit, hnative, gas, hgas, timeRange, htime, paymaster, hpaymaster, rfl⟩

/-! ### A new key -/

section

variable {W S : Type} [DecidableEq W] {E : Env W S} {checksumAddress : String → String}
  {timestamp : Uint256} {account key : Address} {grant : BufiGrant} {s s' : State W S}

/-- The key has an id, and nothing is stored under it. -/
structure FreshKey (E : Env W S) (account key : Address) (s : State W S) : Prop where
  keyId : s.sessionKeyIdOf E.keccak account key ≠ 0
  permissions : s.permissionsOf E.keccak account (s.sessionKeyIdOf E.keccak account key) = .default

theorem freshKey_of_addSessionKey {h₀ : List (Evm.Call (State W S) Tx)} {s₀ : State W S}
    (hrun : Run (step E) (State.initial E.set) h₀ s₀) {tag : Bytes32}
    (hadd : addSessionKey E timestamp account s₀ key tag [] = .ok s) :
    FreshKey E account key s := by
  have hkeyAdded := addSessionKey_eq_ok hadd
  have hstart := startsWith_of_keyAdded (registry_of_run hrun account) hkeyAdded
  refine ⟨?_, (Except.ok.inj hstart).symm⟩
  intro hzero
  have hid := hkeyAdded.keyId key
  rw [if_pos rfl, hzero] at hid
  have hnext := toNat_next hkeyAdded.counter_lt
  rw [← hid] at hnext
  simp at hnext

theorem installs_permissions (hfresh : FreshKey E account key s)
    (h : Installs E checksumAddress timestamp account key grant s s') :
    grant.WellFormed ∧
      Permissions.default.updateAll timestamp (grant.updates.map encodeFunctionData) =
        .ok (s'.permissionsOf E.keccak account (s.sessionKeyIdOf E.keccak account key)) := by
  obtain ⟨updates, hbuild, hupdate⟩ := h
  obtain ⟨hwell, rfl⟩ := buildBufiGrant_eq_map hbuild
  obtain ⟨-, -, hperform⟩ := updateKeyPermissions_eq_ok hupdate
  rw [hfresh.permissions] at hperform
  exact ⟨hwell, hperform⟩

theorem exists_installs (hfresh : FreshKey E account key s) {updates : List Bytes}
    (hbuild : buildBufiGrant checksumAddress grant = .ok updates)
    (htokens : ∀ b ∈ grant.erc20, b.address ≠ 0) :
    ∃ s', Installs E checksumAddress timestamp account key grant s s' := by
  obtain ⟨-, rfl⟩ := buildBufiGrant_eq_map hbuild
  obtain ⟨q, hq⟩ := exists_foldlM_erc20 timestamp htokens (applyScope .default grant.allow)
  have hall := updateAll_updates grant timestamp
  rw [hq, ok_bind, ← hfresh.permissions] at hall
  obtain ⟨s', hs'⟩ := exists_performUpdates hall
  refine ⟨s', _, hbuild, ?_⟩
  rw [updateKeyPermissions, bind_eq_ok]
  exact ⟨_, loadSessionKeyId_eq_ok.mpr ⟨hfresh.keyId, rfl⟩, hs'⟩

theorem compilesMeaning_of_exact (hfresh : FreshKey E account key s) {updates : List Bytes}
    (hbuild : buildBufiGrant checksumAddress grant = .ok updates) (hexact : grant.Exact) :
    CompilesMeaning E checksumAddress timestamp account key grant s := by
  obtain ⟨hwell, -⟩ := buildBufiGrant_eq_map hbuild
  have htokens : ∀ b ∈ grant.erc20, b.address ≠ 0 := by
    intro b hb hzero
    exact hexact.tokens b hb ((token_iff hwell hb).mpr hzero)
  obtain ⟨s', hs'⟩ := exists_installs hfresh hbuild htokens
  obtain ⟨-, hperm'⟩ := installs_permissions hfresh hs'
  refine ⟨s', hs', meaning_of_exact hwell hexact (grantState_of_updateAll hperm'), ?_⟩
  intro allow' hperm
  obtain ⟨updates', hbuild'⟩ := exists_build_perm hbuild hperm
  obtain ⟨s'', hs''⟩ : ∃ s'', Installs E checksumAddress timestamp account key
    { grant with allow := allow' } s s'' := exists_installs hfresh hbuild' htokens
  refine ⟨s'', hs'', ?_⟩
  obtain ⟨-, hperm''⟩ := installs_permissions hfresh hs''
  have hscope : applyScope .default allow' = applyScope .default grant.allow := by
    refine applyScope_perm hperm ?_ _
    intro e he e' he' haddr
    exact hexact.oneKind e he e' he' e'.address ((address_iff hwell he).mpr haddr)
      ((address_iff hwell he').mpr rfl)
  rw [updateAll_updates] at hperm' hperm''
  rw [show ({ grant with allow := allow' } : BufiGrant).allow = allow' from rfl, hscope] at hperm''
  exact Except.ok.inj (hperm''.symm.trans hperm')

/-! ### Grants that are not exact -/

/-- The order of the entries matters as soon as a target has entries of both kinds. -/
theorem oneKind_of_compiles (hfresh : FreshKey E account key s)
    (h : CompilesMeaning E checksumAddress timestamp account key grant s)
    {e e' : BufiGrantScopeEntry} (he : e ∈ grant.allow) (he' : e' ∈ grant.allow)
    (haddr : e.address = e'.address) (hnil : e.functions = []) :
    e'.functions = [] := by
  obtain ⟨s', -, -, horder⟩ := h
  have hcheck : ∀ x ∈ grant.allow, ((s'.permissionsOf E.keccak account
      (s.sessionKeyIdOf E.keccak account key)).contracts x.address).checkSelectors =
        decide (0 < x.functions.length) := by
    intro x hx
    obtain ⟨allow', hperm, hlast⟩ := exists_perm_last hx
    obtain ⟨s'', hs'', hsame⟩ := horder allow' hperm
    obtain ⟨-, hperm''⟩ := installs_permissions hfresh hs''
    rw [← hsame]
    exact (grantState_of_updateAll hperm'').checkSelectors x.address x hlast
  have hsame := (hcheck e he).symm.trans ((congrArg (fun c => ((s'.permissionsOf E.keccak account
    (s.sessionKeyIdOf E.keccak account key)).contracts c).checkSelectors) haddr).trans
      (hcheck e' he'))
  rw [hnil] at hsame
  by_contra hne
  rw [decide_eq_true (List.length_pos_iff.mpr hne)] at hsame
  cases hsame

theorem exact_of_compiles (hfresh : FreshKey E account key s)
    (h : CompilesMeaning E checksumAddress timestamp account key grant s) : grant.Exact := by
  have hcompiles := h
  obtain ⟨s', hs', hmean, -⟩ := h
  obtain ⟨hwell, hperm⟩ := installs_permissions hfresh hs'
  have hstate := grantState_of_updateAll hperm
  have hkey : KeyState grant (s'.sessionKeyDataOf E.keccak account
      (s.sessionKeyIdOf E.keccak account key)) := by
    rw [show s'.sessionKeyDataOf E.keccak account (s.sessionKeyIdOf E.keccak account key) =
      grantKey grant timestamp .default from hstate.key]
    exact keyState_grantKey grant timestamp
  have hkind : ∀ e ∈ grant.allow, ∀ e' ∈ grant.allow, ∀ c, addressOf e.target = some c →
      addressOf e'.target = some c → e.functions = [] → e'.functions = [] := by
    intro e he e' he' c hc hc'
    rw [address_iff hwell he] at hc
    rw [address_iff hwell he'] at hc'
    exact oneKind_of_compiles hfresh hcompiles he he' (hc.trans hc'.symm)
  refine ⟨hkind, ?_, ?_, ?_, ?_, ?_, ?_⟩
  · -- the plugin accepts every call to the target, also `transferFrom`
    intro e he c hc hbudget hnil
    have hsome : lastEntry grant.allow c ≠ none :=
      fun hnone => lastWith_eq_none.mp hnone e he ((address_iff hwell he).mp hc)
    obtain ⟨last, hlast⟩ := Option.ne_none_iff_exists'.mp hsome
    obtain ⟨hmem, haddr⟩ := lastWith_eq_some hlast
    have hlastNil := hkind e he last hmem c hc ((address_iff hwell hmem).mpr haddr) hnil
    have haccepts : Accepts E.keccak s' account (s.sessionKeyIdOf E.keccak account key) c
        bareTransferFrom := by
      rw [accepts_allowlist hkey.accessType]
      refine ⟨(hstate.isOnList c).trans (by rw [hlast]; rfl), .inl ?_⟩
      refine (hstate.checkSelectors c last hlast).trans ?_
      rw [hlastNil]
      rfl
    have hallowed := ((hmean.scope c bareTransferFrom).mp haccepts).2 hbudget
    exact absurd hallowed (by decide)
  · intro b hb hzero
    exact hstate.tokens b hb ((token_iff hwell hb).mp hzero)
  · intro b hb hmax
    have hbudget : grant.Budgeted b.address := ⟨b, hb, hwell.tokens b hb⟩
    obtain ⟨last, hlast⟩ := (budgeted_iff hwell).mp hbudget
    have hlimited := hstate.limited b.address last hlast
    have henabled := (hmean.tokens b.address).mpr hbudget
    change Limited last.toBufiGrantSpendBudget (s'.contractDataOf E.keccak account
      (s.sessionKeyIdOf E.keccak account key) b.address).isERC20WithSpendLimit _ at hlimited
    rw [henabled] at hlimited
    have hlastMax := hlimited.enabled.mp rfl
    have his := (hmean.tokenLimits b hb b.address (hwell.tokens b hb)).amount
    have hlastIs := (hlimited.limitIs (hwell.erc20 last (lastWith_eq_some hlast).1)).amount
    refine hlastMax ((limitWord_eq_allOnes (hwell.erc20 last (lastWith_eq_some hlast).1)).mpr ?_)
    rw [hlastIs, ← hmax, his]
    rfl
  · intro b hb b' hb' c hc hc'
    have his := hmean.tokenLimits b hb c hc
    have his' := hmean.tokenLimits b' hb' c hc'
    exact ⟨his.amount.trans his'.amount.symm, his.interval.trans his'.interval.symm⟩
  · cases hnative : grant.nativeLimit with
    | none =>
      have hsome := hmean.native.mp (hkey.nativeDefault hnative)
      rw [hnative] at hsome
      cases hsome
    | some b =>
      refine ⟨b, rfl, ?_⟩
      have hflag := hmean.native.mpr (by rw [hnative]; rfl)
      have hlimited := hkey.native b hnative
      rw [hflag] at hlimited
      rw [Ne, ← limitWord_eq_allOnes (hwell.native b hnative)]
      exact hlimited.enabled.mp rfl
  · intro b hb
    have hflag := hmean.gas.mpr (by rw [Option.mem_def.mp hb]; rfl)
    have hlimited := hkey.gas b hb
    rw [hflag] at hlimited
    rw [Ne, ← limitWord_eq_allOnes (hwell.gas b hb)]
    exact hlimited.enabled.mp rfl

/-- **When a grant is compiled to what it means**: for every grant that is not refused
and every key that has just been added. -/
theorem compilesMeaning_iff {h₀ : List (Evm.Call (State W S) Tx)} {s₀ : State W S}
    (hrun : Run (step E) (State.initial E.set) h₀ s₀) {tag : Bytes32} {added : Uint256}
    (hadd : addSessionKey E added account s₀ key tag [] = .ok s) {updates : List Bytes}
    (hbuild : buildBufiGrant checksumAddress grant = .ok updates) (timestamp : Uint256) :
    CompilesMeaning E checksumAddress timestamp account key grant s ↔ grant.Exact := by
  have hfresh := freshKey_of_addSessionKey hrun hadd
  exact ⟨exact_of_compiles hfresh, compilesMeaning_of_exact hfresh hbuild⟩

end

/-! ### Two grants for the agent -/

def tokenText : String := "0x0000000000000000000000000000000000000400"

/-- Entries for one target, with 10 native tokens and until time 2000. -/
def nativeGrantOf (allow : List BufiGrantScopeEntry) : BufiGrant where
  allow := allow
  budget := some ⟨none, some ⟨10, .ofNat 0⟩, none⟩
  expiry := ⟨none, .ofNat 2000⟩
  requiredPaymaster := none

def transferEntry : BufiGrantScopeEntry := ⟨tokenText, some [selTransfer]⟩

def wholeEntry : BufiGrantScopeEntry := ⟨tokenText, none⟩

/-- The token, with `transfer` and `approve` in entries of their own and 100 of it in
every 1000 seconds, and every call to a vault. -/
def vaultGrant : BufiGrant where
  allow := [transferEntry, ⟨"0x0000000000000000000000000000000000000800", none⟩,
    ⟨tokenText, some [selApprove]⟩]
  budget := some
    ⟨some [⟨⟨100, .ofNat 1000⟩, tokenText⟩], some ⟨10, .ofNat 0⟩, some ⟨500, .ofNat 60⟩⟩
  expiry := ⟨some (.ofNat 1200), .ofNat 2000⟩
  requiredPaymaster := none

/-- The agent is added without updates, and both grants are compiled. -/
theorem grants_compile :
    (addSessionKey agentEnv 1000 wallet (State.initial agentEnv.set) agent 0 []).toOption.isSome ∧
      (buildBufiGrant id vaultGrant).toOption.isSome ∧
      (buildBufiGrant id (nativeGrantOf [wholeEntry, transferEntry])).toOption.isSome := by
  decide +kernel

/-- An entry for the token has selectors. -/
theorem functions_vaultGrant {e : BufiGrantScopeEntry} (he : e ∈ vaultGrant.allow) :
    (addressOf e.target = some 0x400 ∧ e.functions ≠ [])
      ∨ (addressOf e.target = some 0x800 ∧ e.functions = []) := by
  simp only [vaultGrant, List.mem_cons, List.not_mem_nil, or_false] at he
  rcases he with rfl | rfl | rfl
  · exact .inl (by decide +kernel)
  · exact .inr (by decide +kernel)
  · exact .inl (by decide +kernel)

theorem exact_vaultGrant : vaultGrant.Exact where
  oneKind e he e' he' c hc hc' hnil := by
    obtain ⟨-, hne⟩ | ⟨haddr, -⟩ := functions_vaultGrant he
    · exact absurd hnil hne
    obtain ⟨haddr', -⟩ | ⟨-, hnil'⟩ := functions_vaultGrant he'
    · rw [haddr] at hc
      rw [haddr', ← hc] at hc'
      exact absurd hc' (by decide)
    · exact hnil'
  listed e he c hc hbudget := by
    obtain ⟨b, hb, haddr⟩ := hbudget
    rw [List.mem_singleton.mp hb, show addressOf tokenText = some 0x400 by decide +kernel] at haddr
    obtain ⟨-, hne⟩ | ⟨haddr', -⟩ := functions_vaultGrant he
    · exact hne
    · rw [haddr', ← haddr] at hc
      exact absurd hc (by decide)
  tokens b hb := by
    rw [List.mem_singleton.mp hb]
    decide +kernel
  limits b hb := by
    rw [List.mem_singleton.mp hb]
    decide
  oneLimit b hb b' hb' c _ _ := by
    rw [List.mem_singleton.mp hb, List.mem_singleton.mp hb']
    exact ⟨rfl, rfl⟩
  native := ⟨⟨10, .ofNat 0⟩, rfl, by decide⟩
  gas b hb := by
    obtain rfl := Option.some.inj hb
    decide

/-- Two entries for the token, one for a vault, and all three budgets. -/
theorem compilesMeaning_iff_vault :
    ∃ s : State Term (List Address),
      addSessionKey agentEnv 1000 wallet (State.initial agentEnv.set) agent 0 [] = .ok s ∧
      CompilesMeaning agentEnv id 1000 wallet agent vaultGrant s := by
  obtain ⟨s, hs⟩ := Option.isSome_iff_exists.mp grants_compile.1
  obtain ⟨updates, hbuild⟩ := Option.isSome_iff_exists.mp grants_compile.2.1
  rw [toOption_eq_some] at hs hbuild
  exact ⟨s, hs, (compilesMeaning_iff .nil hs hbuild 1000).mpr exact_vaultGrant⟩

/-- **An entry for the whole target is lost** when one with selectors follows it. -/
theorem compilesMeaning_not_whole :
    ∃ (s : State Term (List Address)) (updates : List Bytes),
      addSessionKey agentEnv 1000 wallet (State.initial agentEnv.set) agent 0 [] = .ok s ∧
      buildBufiGrant id (nativeGrantOf [wholeEntry, transferEntry]) = .ok updates ∧
      ¬ CompilesMeaning agentEnv id 1000 wallet agent
        (nativeGrantOf [wholeEntry, transferEntry]) s := by
  obtain ⟨s, hs⟩ := Option.isSome_iff_exists.mp grants_compile.1
  obtain ⟨updates, hbuild⟩ := Option.isSome_iff_exists.mp grants_compile.2.2
  rw [toOption_eq_some] at hs hbuild
  refine ⟨s, updates, hs, hbuild, ?_⟩
  intro hcompiles
  have hexact := exact_of_compiles (freshKey_of_addSessionKey .nil hs) hcompiles
  have htarget := (buildBufiGrant_eq_map hbuild).1.targets wholeEntry (by simp [nativeGrantOf])
  have hnil := hexact.oneKind wholeEntry (by simp [nativeGrantOf]) transferEntry
    (by simp [nativeGrantOf]) _ htarget htarget rfl
  cases hnil

end Bufi.Grant
