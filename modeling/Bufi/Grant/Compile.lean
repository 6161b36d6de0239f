import Bufi.Grant.Build
import Bufi.Js.Collections

/-!
# The permissions of a compiled grant

`BufiGrant.updates` are the updates of a grant before they are encoded, and
`buildBufiGrant_eq_map` says that a grant that is not refused is compiled to them.
The plugin performs them one after another on the permissions of a new key: an
entry of the scope overwrites the two flags of its target and adds to its functions
(`contracts_applyScope`, `functions_applyScope`), so that of several entries of one
target the last decides whether selectors are checked.  A limit of a token replaces
an earlier one (`foldlM_erc20`), and the rest concerns the key alone.
-/

namespace Bufi.Grant

open Bufi.Evm Bufi.Js Bufi.Session

/-! ### The updates of a grant -/

namespace BufiGrantScopeEntry

/-- The address of the target of an accepted entry. -/
def address (entry : BufiGrantScopeEntry) : Address := (addressOf entry.target).getD 0

def functions (entry : BufiGrantScopeEntry) : List Bytes4 := entry.selectors.getD []

def updates (entry : BufiGrantScopeEntry) : List PermissionsUpdate :=
  .updateAccessListAddressEntry entry.address true (decide (0 < entry.functions.length))
    :: entry.functions.map (fun selector =>
      .updateAccessListFunctionEntry entry.address selector true)

end BufiGrantScopeEntry

namespace BufiGrantSpendBudget

def limitWord (b : BufiGrantSpendBudget) : Uint256 := BitVec.ofInt 256 b.limit

def intervalWord (b : BufiGrantSpendBudget) : Uint48 := BitVec.ofNat 48 b.refreshIntervalSeconds.toNat

/-- The words are the amount and the interval. -/
structure Encodes (b : BufiGrantSpendBudget) : Prop where
  limit : b.limit = b.limitWord.toNat
  interval : b.refreshIntervalSeconds = .ofNat b.intervalWord.toNat

end BufiGrantSpendBudget

/-- The address of the token of an accepted budget. -/
def BufiGrantErc20Budget.address (b : BufiGrantErc20Budget) : Address := (addressOf b.token).getD 0

def BufiGrantErc20Budget.update (b : BufiGrantErc20Budget) : PermissionsUpdate :=
  .setERC20SpendLimit b.address b.limitWord b.intervalWord

namespace BufiGrant

def erc20 (grant : BufiGrant) : List BufiGrantErc20Budget := (grant.budget.bind (·.erc20)).getD []

def nativeLimit (grant : BufiGrant) : Option BufiGrantSpendBudget := grant.budget.bind (·.native)

def gasLimit (grant : BufiGrant) : Option BufiGrantSpendBudget := grant.budget.bind (·.gas)

def validAfter (grant : BufiGrant) : Number := grant.expiry.validAfter.getD (.ofNat 0)

def keyUpdates (grant : BufiGrant) : List PermissionsUpdate :=
  grant.nativeLimit.toList.map (fun b => .setNativeTokenSpendLimit b.limitWord b.intervalWord)
    ++ grant.gasLimit.toList.map (fun b => .setGasSpendLimit b.limitWord b.intervalWord)
    ++ .updateTimeRange (BitVec.ofNat 48 grant.validAfter.toNat)
        (BitVec.ofNat 48 grant.expiry.validUntil.toNat)
    :: (grant.requiredPaymaster.filter (· ≠ "")).toList.map (fun s =>
      .setRequiredPaymaster ((addressOf s).getD 0))

/-- The updates a grant stands for. -/
def updates (grant : BufiGrant) : List PermissionsUpdate :=
  .setAccessListType .allowlist :: grant.allow.flatMap BufiGrantScopeEntry.updates
    ++ grant.erc20.map BufiGrantErc20Budget.update ++ grant.keyUpdates

/-- What viem has found to be addresses, amounts and times. -/
structure WellFormed (grant : BufiGrant) : Prop where
  targets : ∀ entry ∈ grant.allow, addressOf entry.target = some entry.address
  tokens : ∀ b ∈ grant.erc20, addressOf b.token = some b.address
  erc20 : ∀ b ∈ grant.erc20, b.Encodes
  native : ∀ b ∈ grant.nativeLimit, b.Encodes
  gas : ∀ b ∈ grant.gasLimit, b.Encodes
  validAfter : grant.validAfter = .ofNat (BitVec.ofNat 48 grant.validAfter.toNat).toNat
  validUntil : grant.expiry.validUntil =
    .ofNat (BitVec.ofNat 48 grant.expiry.validUntil.toNat).toNat

end BufiGrant

theorem encodeBigInt_eq_word {n : ℕ} {x : ℤ} {w : BitVec n} (h : encodeBigInt n x = .ok w) :
    w = BitVec.ofInt n x := by
  simp only [encodeBigInt, bind_eq_ok, require_eq_ok, exists_const, pure_eq_ok] at h
  exact h.2

theorem encodeNumber_eq_word {n : ℕ} {x : Number} {w : BitVec n} (h : encodeNumber n x = .ok w) :
    w = BitVec.ofNat n x.toNat := by
  rw [encodeNumber_eq_ok h, Number.toNat_ofNat, BitVec.ofNat_toNat, BitVec.setWidth_eq]

/-- The two arguments of a limit. -/
theorem encodes_of_ok {b : BufiGrantSpendBudget} {spendLimit : Uint256} {refreshInterval : Uint48}
    (hlimit : encodeBigInt 256 b.limit = .ok spendLimit)
    (hinterval : encodeNumber 48 b.refreshIntervalSeconds = .ok refreshInterval) :
    spendLimit = b.limitWord ∧ refreshInterval = b.intervalWord ∧ b.Encodes := by
  have hl : spendLimit = b.limitWord := encodeBigInt_eq_word hlimit
  have hi : refreshInterval = b.intervalWord := encodeNumber_eq_word hinterval
  refine ⟨hl, hi, ?_, ?_⟩
  · rw [← hl]
    exact encodeBigInt_eq_ok hlimit
  · rw [← hi]
    exact encodeNumber_eq_ok hinterval

variable {checksumAddress : String → String} {grant : BufiGrant}

theorem address_of_ok {s : String} {a : Address} (h : encodeAddress checksumAddress s = .ok a) :
    a = (addressOf s).getD 0 := by
  rw [encodeAddress_eq_ok h]
  rfl

theorem encodeScopeEntry_eq_map {entry : BufiGrantScopeEntry} {l : List Bytes}
    (h : encodeScopeEntry checksumAddress entry = .ok l) :
    addressOf entry.target = some entry.address ∧ l = entry.updates.map encodeFunctionData := by
  simp only [encodeScopeEntry, encodeUpdateAccessListAddressEntry, bind_eq_ok, pure_eq_ok] at h
  obtain ⟨address, ⟨c, hc, rfl⟩, functions, hfunctions, rfl⟩ := h
  have hcaddr : c = entry.address := address_of_ok hc
  refine ⟨hcaddr ▸ encodeAddress_eq_ok hc, ?_⟩
  have hmap := (mapM_eq_map (P := fun _ => True)
    (g := fun selector => encodeFunctionData
      (.updateAccessListFunctionEntry entry.address selector true)) ?_).mp hfunctions
  · rw [hmap.2, hcaddr]
    simp only [BufiGrantScopeEntry.updates, List.map_cons, List.map_map]
    rfl
  · intro selector _ b
    simp only [encodeUpdateAccessListFunctionEntry, hc, bind_eq_ok, pure_eq_ok, true_and, hcaddr]
    simp

theorem encodeSetERC20SpendLimit_eq_update {b : BufiGrantErc20Budget} {x : Bytes}
    (h : encodeSetERC20SpendLimit checksumAddress b = .ok x) :
    (addressOf b.token = some b.address ∧ b.Encodes) ∧ x = encodeFunctionData b.update := by
  simp only [encodeSetERC20SpendLimit, bind_eq_ok, pure_eq_ok] at h
  obtain ⟨token, htoken, spendLimit, hlimit, refreshInterval, hinterval, rfl⟩ := h
  have ha : token = b.address := address_of_ok htoken
  obtain ⟨rfl, rfl, hencodes⟩ := encodes_of_ok hlimit hinterval
  exact ⟨⟨ha ▸ encodeAddress_eq_ok htoken, hencodes⟩, by rw [ha]; rfl⟩

theorem encodeSetNativeTokenSpendLimit_eq_update {b : BufiGrantSpendBudget} {x : Bytes}
    (h : encodeSetNativeTokenSpendLimit b = .ok x) :
    b.Encodes ∧ x = encodeFunctionData (.setNativeTokenSpendLimit b.limitWord b.intervalWord) := by
  simp only [encodeSetNativeTokenSpendLimit, bind_eq_ok, pure_eq_ok] at h
  obtain ⟨spendLimit, hlimit, refreshInterval, hinterval, rfl⟩ := h
  obtain ⟨rfl, rfl, hencodes⟩ := encodes_of_ok hlimit hinterval
  exact ⟨hencodes, rfl⟩

theorem encodeSetGasSpendLimit_eq_update {b : BufiGrantSpendBudget} {x : Bytes}
    (h : encodeSetGasSpendLimit b = .ok x) :
    b.Encodes ∧ x = encodeFunctionData (.setGasSpendLimit b.limitWord b.intervalWord) := by
  simp only [encodeSetGasSpendLimit, bind_eq_ok, pure_eq_ok] at h
  obtain ⟨spendLimit, hlimit, refreshInterval, hinterval, rfl⟩ := h
  obtain ⟨rfl, rfl, hencodes⟩ := encodes_of_ok hlimit hinterval
  exact ⟨hencodes, rfl⟩

/-- A loop of encoders, each of which checks something and encodes one update. -/
theorem mapM_encode {α : Type} {f : α → Except GrantError Bytes} {P : α → Prop}
    {u : α → PermissionsUpdate} {l : List α} {r : List Bytes}
    (h : ∀ a x, f a = .ok x → P a ∧ x = encodeFunctionData (u a)) (hr : l.mapM f = .ok r) :
    (∀ a ∈ l, P a) ∧ r = (l.map u).map encodeFunctionData := by
  induction mapM_eq_ok.mp hr with
  | nil => exact ⟨fun a ha => absurd ha List.not_mem_nil, rfl⟩
  | @cons a x l r hax hlr ih =>
    obtain ⟨ha, rfl⟩ := h a x hax
    obtain ⟨hl, rfl⟩ := ih (mapM_eq_ok.mpr hlr)
    exact ⟨List.forall_mem_cons.mpr ⟨ha, hl⟩, rfl⟩

theorem mapM_encodeScope {l : List BufiGrantScopeEntry} {r : List (List Bytes)}
    (hr : l.mapM (encodeScopeEntry checksumAddress) = .ok r) :
    (∀ entry ∈ l, addressOf entry.target = some entry.address) ∧
      r.flatten = (l.flatMap BufiGrantScopeEntry.updates).map encodeFunctionData := by
  induction mapM_eq_ok.mp hr with
  | nil => exact ⟨fun a ha => absurd ha List.not_mem_nil, rfl⟩
  | @cons entry x l r hx hlr ih =>
    obtain ⟨hentry, rfl⟩ := encodeScopeEntry_eq_map hx
    obtain ⟨hl, hflat⟩ := ih (mapM_eq_ok.mpr hlr)
    refine ⟨List.forall_mem_cons.mpr ⟨hentry, hl⟩, ?_⟩
    rw [List.flatten_cons, List.flatMap_cons, List.map_append, hflat]

/-- **A grant that is not refused is compiled to its updates.** -/
theorem buildBufiGrant_eq_map {l : List Bytes} (h : buildBufiGrant checksumAddress grant = .ok l) :
    grant.WellFormed ∧ l = grant.updates.map encodeFunctionData := by
  simp only [buildBufiGrant, bind_eq_ok, require_eq_ok, exists_const, pure_eq_ok] at h
  obtain ⟨-, -, scope, hscope, erc20, herc20, nativeLimit, hnative, gas, hgas, timeRange, htime,
    paymaster, hpaymaster, rfl⟩ := h
  obtain ⟨htargets, hscope⟩ := mapM_encodeScope hscope
  obtain ⟨htokens, rfl⟩ := mapM_encode (fun _ _ => encodeSetERC20SpendLimit_eq_update) herc20
  obtain ⟨hnatives, rfl⟩ :=
    mapM_encode (fun _ _ => encodeSetNativeTokenSpendLimit_eq_update) hnative
  obtain ⟨hgases, rfl⟩ := mapM_encode (fun _ _ => encodeSetGasSpendLimit_eq_update) hgas
  obtain ⟨-, rfl⟩ := mapM_encode (P := fun _ => True)
    (u := fun s => .setRequiredPaymaster ((addressOf s).getD 0)) (fun s x hx => by
      simp only [encodeSetRequiredPaymaster, bind_eq_ok, pure_eq_ok] at hx
      obtain ⟨paymaster, haddress, rfl⟩ := hx
      rw [address_of_ok haddress]
      exact ⟨trivial, rfl⟩) hpaymaster
  simp only [encodeUpdateTimeRange, bind_eq_ok, pure_eq_ok] at htime
  obtain ⟨after, hafter, until', huntil, rfl⟩ := htime
  have ha : after = BitVec.ofNat 48 grant.validAfter.toNat := encodeNumber_eq_word hafter
  have hu : until' = BitVec.ofNat 48 grant.expiry.validUntil.toNat := encodeNumber_eq_word huntil
  refine ⟨⟨htargets, fun b hb => (htokens b hb).1, fun b hb => (htokens b hb).2,
    fun b hb => hnatives b (Option.mem_toList.mpr hb), fun b hb => hgases b (Option.mem_toList.mpr hb),
    ?_, ?_⟩, ?_⟩
  · rw [← ha]
    exact encodeNumber_eq_ok hafter
  · rw [← hu]
    exact encodeNumber_eq_ok huntil
  · rw [hscope, ha, hu]
    simp only [BufiGrant.updates, BufiGrant.keyUpdates, List.map_append, List.map_cons,
      List.append_assoc, List.cons_append]
    rfl

/-! ### The scope -/

/-- What the updates of an entry do. -/
def applyEntry (p : Permissions) (entry : BufiGrantScopeEntry) : Permissions :=
  entry.functions.foldl (fun p selector => p.setFunction entry.address selector ⟨true⟩)
    (p.mapContract entry.address
      (·.updateAccessListAddressEntry true (decide (0 < entry.functions.length))))

def applyScope (p : Permissions) (allow : List BufiGrantScopeEntry) : Permissions :=
  allow.foldl applyEntry p

theorem foldlM_functions (timestamp : Uint256) (c : Address) (l : List Bytes4) (p : Permissions) :
    (l.map (fun selector => PermissionsUpdate.updateAccessListFunctionEntry c selector true)).foldlM
      (Permissions.perform timestamp) p =
        .ok (l.foldl (fun p selector => p.setFunction c selector ⟨true⟩) p) := by
  induction l generalizing p with
  | nil => rfl
  | cons selector l ih => exact ih (p.setFunction c selector ⟨true⟩)

theorem foldlM_scope (timestamp : Uint256) (allow : List BufiGrantScopeEntry) (p : Permissions) :
    (allow.flatMap BufiGrantScopeEntry.updates).foldlM (Permissions.perform timestamp) p =
      .ok (applyScope p allow) := by
  induction allow generalizing p with
  | nil => rfl
  | cons entry allow ih =>
    rw [List.flatMap_cons, List.foldlM_append, bind_eq_ok]
    exact ⟨applyEntry p entry, foldlM_functions timestamp _ _ _, ih _⟩

theorem functions_setFunctions (c : Address) (l : List Bytes4) (p : Permissions) (x : Address)
    (selector : Bytes4) :
    (l.foldl (fun p selector => p.setFunction c selector ⟨true⟩) p).functions x selector =
      if x = c ∧ selector ∈ l then ⟨true⟩ else p.functions x selector := by
  induction l generalizing p with
  | nil => simp
  | cons f l ih =>
    rw [List.foldl_cons, ih, Permissions.functions_setFunction]
    by_cases hx : x = c
    · by_cases hl : selector ∈ l
      · rw [if_pos ⟨hx, hl⟩, if_pos ⟨hx, List.mem_cons_of_mem f hl⟩]
      · by_cases hf : selector = f
        · rw [if_neg (fun h => hl h.2), if_pos ⟨hx, hf⟩,
            if_pos ⟨hx, hf ▸ List.mem_cons_self⟩]
        · rw [if_neg (fun h => hl h.2), if_neg (fun h => hf h.2),
            if_neg (fun h => (List.mem_cons.mp h.2).elim hf hl)]
    · rw [if_neg (fun h => hx h.1), if_neg (fun h => hx h.1), if_neg (fun h => hx h.1)]

theorem frame_setFunctions (c : Address) (l : List Bytes4) (p : Permissions) :
    (l.foldl (fun p selector => p.setFunction c selector ⟨true⟩) p).key = p.key ∧
      (l.foldl (fun p selector => p.setFunction c selector ⟨true⟩) p).contracts = p.contracts := by
  induction l generalizing p with
  | nil => exact ⟨rfl, rfl⟩
  | cons f l ih => exact ih (p.setFunction c f ⟨true⟩)

/-- The last entry of a target. -/
def lastEntry (allow : List BufiGrantScopeEntry) (c : Address) : Option BufiGrantScopeEntry :=
  lastWith (fun entry => entry.address = c) allow

theorem applyScope_concat (p : Permissions) (allow : List BufiGrantScopeEntry)
    (entry : BufiGrantScopeEntry) :
    applyScope p (allow ++ [entry]) = applyEntry (applyScope p allow) entry :=
  List.foldl_append

theorem key_applyScope (p : Permissions) (allow : List BufiGrantScopeEntry) :
    (applyScope p allow).key = p.key := by
  induction allow generalizing p with
  | nil => rfl
  | cons entry allow ih =>
    exact (ih (applyEntry p entry)).trans (frame_setFunctions _ _ _).1

/-- **The last entry of a target decides about its selectors.** -/
theorem contracts_applyScope (p : Permissions) (allow : List BufiGrantScopeEntry) (x : Address) :
    (applyScope p allow).contracts x = (lastEntry allow x).elim (p.contracts x) (fun entry =>
      (p.contracts x).updateAccessListAddressEntry true (decide (0 < entry.functions.length))) := by
  induction allow using List.reverseRecOn with
  | nil => rfl
  | append_singleton allow entry ih =>
    rw [applyScope_concat, applyEntry, (frame_setFunctions _ _ _).2,
      Permissions.contracts_mapContract, lastEntry, lastWith_concat, ← lastEntry]
    by_cases h : x = entry.address
    · rw [if_pos h, if_pos h.symm, ← h, ih]
      cases lastEntry allow x with
      | none => rfl
      | some other => rfl
    · rw [if_neg h, if_neg (fun he => h he.symm), ih]

/-- Functions add up. -/
theorem functions_applyScope (p : Permissions) (allow : List BufiGrantScopeEntry) (x : Address)
    (selector : Bytes4) :
    (applyScope p allow).functions x selector =
      if ∃ entry ∈ allow, entry.address = x ∧ selector ∈ entry.functions then ⟨true⟩
      else p.functions x selector := by
  induction allow generalizing p with
  | nil => simp [applyScope]
  | cons entry allow ih =>
    rw [applyScope, List.foldl_cons, ← applyScope, ih, applyEntry, functions_setFunctions]
    by_cases hrest : ∃ other ∈ allow, other.address = x ∧ selector ∈ other.functions
    · obtain ⟨other, hmem, hother⟩ := hrest
      rw [if_pos ⟨other, hmem, hother⟩, if_pos ⟨other, List.mem_cons_of_mem _ hmem, hother⟩]
    · rw [if_neg hrest]
      by_cases hfirst : x = entry.address ∧ selector ∈ entry.functions
      · rw [if_pos hfirst, if_pos ⟨entry, List.mem_cons_self, hfirst.1.symm, hfirst.2⟩]
      · rw [if_neg hfirst, if_neg]
        · rfl
        · rintro ⟨other, hmem, haddr, hsel⟩
          rcases List.mem_cons.mp hmem with rfl | hmem
          · exact hfirst ⟨haddr.symm, hsel⟩
          · exact hrest ⟨other, hmem, haddr, hsel⟩

/-! ### The limits of the tokens -/

/-- The last budget of a token. -/
def lastBudget (budgets : List BufiGrantErc20Budget) (c : Address) : Option BufiGrantErc20Budget :=
  lastWith (fun b => b.address = c) budgets

/-- What a budget makes of the limit of its token. -/
structure Limited (b : BufiGrantSpendBudget) (flag : Bool) (limit : Budget) : Prop where
  enabled : flag = true ↔ b.limitWord ≠ BitVec.allOnes 256
  amount : flag = true → limit.2.limitAmount = b.limitWord
  interval : flag = true → limit.1.refreshInterval = b.intervalWord
  unused : limit.2.limitUsed = 0

theorem limited_updateSpendLimits (b : BufiGrantSpendBudget) {limit : Budget}
    (hunused : limit.2.limitUsed = 0) (timestamp : Uint256) :
    Limited b (updateSpendLimits timestamp b.limitWord b.intervalWord limit).1
      (updateSpendLimits timestamp b.limitWord b.intervalWord limit).2 := by
  unfold updateSpendLimits
  split
  · rename_i hmax
    refine ⟨iff_of_false Bool.false_ne_true (fun h => h hmax), ?_, ?_, rfl⟩
    · intro he
      exact absurd he Bool.false_ne_true
    · intro he
      exact absurd he Bool.false_ne_true
  · rename_i hmax
    exact ⟨iff_of_true rfl hmax, fun _ => rfl, fun _ => rfl, hunused⟩

/-- The contract's entries of the access list, and its limit as the last budget has
left it. -/
structure TokenState (budgets : List BufiGrantErc20Budget) (c : Address) (before after : ContractData) :
    Prop where
  isOnList : after.isOnList = before.isOnList
  checkSelectors : after.checkSelectors = before.checkSelectors
  unlimited : lastBudget budgets c = none →
    after.isERC20WithSpendLimit = before.isERC20WithSpendLimit
  limited : ∀ b ∈ lastBudget budgets c,
    Limited b.toBufiGrantSpendBudget after.isERC20WithSpendLimit after.budget
  unused : after.budget.2.limitUsed = 0

theorem foldlM_erc20 {timestamp : Uint256} {budgets : List BufiGrantErc20Budget}
    {p q : Permissions} (hunused : ∀ c, (p.contracts c).budget.2.limitUsed = 0)
    (h : (budgets.map BufiGrantErc20Budget.update).foldlM (Permissions.perform timestamp) p =
      .ok q) :
    (∀ b ∈ budgets, b.address ≠ 0) ∧ q.key = p.key ∧ q.functions = p.functions ∧
      ∀ c, TokenState budgets c (p.contracts c) (q.contracts c) := by
  induction budgets using List.reverseRecOn generalizing q with
  | nil =>
    obtain rfl := foldlM_nil_eq_ok.mp h
    refine ⟨fun b hb => absurd hb List.not_mem_nil, rfl, rfl, ?_⟩
    intro c
    exact ⟨rfl, rfl, fun _ => rfl, fun b hb => absurd hb (Option.not_mem_none b), hunused c⟩
  | append_singleton budgets b ih =>
    rw [List.map_append, List.foldlM_append, bind_eq_ok] at h
    obtain ⟨r, hr, h⟩ := h
    obtain ⟨htokens, hkey, hfunctions, hstate⟩ := ih hr
    rw [List.map_singleton, foldlM_cons_eq_ok] at h
    obtain ⟨q', hq', h⟩ := h
    obtain rfl := foldlM_nil_eq_ok.mp h
    simp only [BufiGrantErc20Budget.update, Permissions.perform, bind_eq_ok, require_eq_ok,
      exists_const, pure_eq_ok] at hq'
    obtain ⟨hne, rfl⟩ := hq'
    refine ⟨?_, hkey, hfunctions, ?_⟩
    · intro b' hb'
      rcases List.mem_append.mp hb' with hb' | hb'
      · exact htokens b' hb'
      · rw [List.mem_singleton.mp hb']
        exact hne
    · intro c
      have hc := hstate c
      rw [Permissions.contracts_mapContract]
      by_cases heq : c = b.address
      · subst heq
        rw [if_pos rfl]
        have hlimited := limited_updateSpendLimits b.toBufiGrantSpendBudget hc.unused timestamp
        refine ⟨hc.isOnList, hc.checkSelectors, ?_, ?_, hlimited.unused⟩
        · intro hnone
          rw [lastBudget, lastWith_concat, if_pos rfl] at hnone
          cases hnone
        · intro b' hb'
          rw [lastBudget, lastWith_concat, if_pos rfl, Option.mem_some_iff] at hb'
          rw [← hb']
          exact hlimited
      · rw [if_neg heq]
        refine ⟨hc.isOnList, hc.checkSelectors, ?_, ?_, hc.unused⟩
        · intro hnone
          rw [lastBudget, lastWith_concat, if_neg (fun he => heq he.symm)] at hnone
          exact hc.unlimited hnone
        · intro b' hb'
          rw [lastBudget, lastWith_concat, if_neg (fun he => heq he.symm)] at hb'
          exact hc.limited b' hb'

/-- The limits are accepted unless a token is the zero address. -/
theorem exists_foldlM_erc20 (timestamp : Uint256) {budgets : List BufiGrantErc20Budget}
    (h : ∀ b ∈ budgets, b.address ≠ 0) (p : Permissions) :
    ∃ q, (budgets.map BufiGrantErc20Budget.update).foldlM (Permissions.perform timestamp) p =
      .ok q := by
  induction budgets generalizing p with
  | nil => exact ⟨p, rfl⟩
  | cons b budgets ih =>
    obtain ⟨hb, hrest⟩ := List.forall_mem_cons.mp h
    obtain ⟨q, hq⟩ := ih hrest (p.mapContract b.address
      (·.setERC20SpendLimit timestamp b.limitWord b.intervalWord))
    refine ⟨q, foldlM_cons_eq_ok.mpr ⟨_, ?_, hq⟩⟩
    rw [BufiGrantErc20Budget.update, Permissions.perform, require_of hb]
    rfl

/-! ### The key -/

/-- The key's own data after the limits, the time range and the paymaster. -/
def grantKey (grant : BufiGrant) (timestamp : Uint256) (d : SessionKeyData) : SessionKeyData :=
  let d := grant.nativeLimit.elim d
    (fun b => d.setNativeTokenSpendLimit timestamp b.limitWord b.intervalWord)
  let d := grant.gasLimit.elim d (fun b => d.setGasSpendLimit timestamp b.limitWord b.intervalWord)
  let d := d.updateTimeRange (BitVec.ofNat 48 grant.validAfter.toNat)
    (BitVec.ofNat 48 grant.expiry.validUntil.toNat)
  (grant.requiredPaymaster.filter (· ≠ "")).elim d
    (fun s => d.setRequiredPaymaster ((addressOf s).getD 0))

theorem foldlM_option {α : Type} (timestamp : Uint256) (f : α → PermissionsUpdate)
    (g : α → SessionKeyData → SessionKeyData)
    (h : ∀ a p, Permissions.perform timestamp p (f a) = .ok (p.mapKey (g a))) (o : Option α)
    (p : Permissions) :
    (o.toList.map f).foldlM (Permissions.perform timestamp) p =
      .ok (p.mapKey (fun d => o.elim d (fun a => g a d))) := by
  cases o with
  | none => rfl
  | some a => exact foldlM_cons_eq_ok.mpr ⟨_, h a p, rfl⟩

theorem foldlM_keyUpdates (grant : BufiGrant) (timestamp : Uint256) (p : Permissions) :
    grant.keyUpdates.foldlM (Permissions.perform timestamp) p =
      .ok (p.mapKey (grantKey grant timestamp)) := by
  have hnative := foldlM_option timestamp
    (fun b : BufiGrantSpendBudget => .setNativeTokenSpendLimit b.limitWord b.intervalWord)
    (fun b d => d.setNativeTokenSpendLimit timestamp b.limitWord b.intervalWord) (fun _ _ => rfl)
    grant.nativeLimit
  have hgas := foldlM_option timestamp
    (fun b : BufiGrantSpendBudget => .setGasSpendLimit b.limitWord b.intervalWord)
    (fun b d => d.setGasSpendLimit timestamp b.limitWord b.intervalWord) (fun _ _ => rfl)
    grant.gasLimit
  have hpaymaster := foldlM_option timestamp
    (fun s : String => .setRequiredPaymaster ((addressOf s).getD 0))
    (fun s d => d.setRequiredPaymaster ((addressOf s).getD 0)) (fun _ _ => rfl)
    (grant.requiredPaymaster.filter (· ≠ ""))
  rw [BufiGrant.keyUpdates, List.foldlM_append, List.foldlM_append, hnative, ok_bind, hgas, ok_bind,
    foldlM_cons_eq_ok]
  exact ⟨_, rfl, hpaymaster _⟩

end Bufi.Grant
