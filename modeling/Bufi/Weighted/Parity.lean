import Bufi.Weighted.Compile

/-!
# The rule of the spec in both backends

`compileSquads_eq_ok` and `compileEvm_eq_ok` say when a compiler succeeds and what
it emits.  A Squads policy is signed by all of one minimal coalition; the keys of
the owners are distinct, so a set of owners can sign for a coalition exactly when
it contains it (`solanaKeys_solanaKey`), and some coalition is contained exactly
in the sets that win.
-/

namespace Bufi.Weighted

open Bufi.Evm Bufi.Js Bufi.Threshold

/-! ### Owners and their keys -/

def TreasuryOwner.solanaKey (owner : TreasuryOwner) : String := owner.solana.getD ""

def TreasuryOwner.evmAddress (owner : TreasuryOwner) : String := owner.evm.getD ""

section

variable {spec : WeightedTreasurySpec} {options : CompileSquadsOptions}

theorem truthy_eq_some {x : Option String} {s : String} :
    truthy x = some s ↔ x = some s ∧ s ≠ "" := by
  rw [truthy, Option.filter_eq_some_iff]
  simp

theorem truthy_ne_none_iff {x : Option String} : truthy x ≠ none ↔ truthy x = some (x.getD "") := by
  cases x with
  | none => simp [truthy]
  | some s =>
    by_cases hs : s = ""
    · simp [truthy, hs]
    · simp [truthy, hs, Option.filter]

theorem isSolanaKey_empty : isSolanaKey "" = false := by decide +kernel

theorem isEvmAddress_empty : isEvmAddress "" = false := by decide +kernel

/-- For a valid owner, a value that is there is not empty. -/
theorem ValidOwner.truthy_solana {owner : TreasuryOwner} (h : ValidOwner owner) :
    truthy owner.solana ≠ none ↔ owner.solana = some owner.solanaKey := by
  rw [truthy_ne_none_iff, truthy_eq_some]
  refine and_iff_left_of_imp ?_
  intro hs hempty
  have hkey := h.solana _ hs
  rw [hempty, isSolanaKey_empty] at hkey
  exact absurd hkey (by simp)

theorem ValidOwner.truthy_evm {owner : TreasuryOwner} (h : ValidOwner owner) :
    truthy owner.evm ≠ none ↔ owner.evm = some owner.evmAddress := by
  rw [truthy_ne_none_iff, truthy_eq_some]
  refine and_iff_left_of_imp ?_
  intro hs hempty
  have haddress := h.evm _ hs
  rw [hempty, isEvmAddress_empty] at haddress
  exact absurd haddress (by simp)

/-- The map that `collectKeys` fills. -/
def keyMap (owners : List TreasuryOwner) : List (String × String) :=
  owners.map (fun owner => (owner.id, owner.solanaKey))

theorem collectKeys_eq_ok {keyOf r : List (String × String)} {owners : List TreasuryOwner}
    (hids : (keyOf.map Prod.fst ++ owners.map TreasuryOwner.id).Nodup) :
    collectKeys keyOf owners = .ok r
      ↔ (∀ owner ∈ owners, truthy owner.solana ≠ none ∧ owner.solanaKey ∉ keyOf.map Prod.snd)
        ∧ (owners.map TreasuryOwner.solanaKey).Nodup ∧ r = keyOf ++ keyMap owners := by
  induction owners generalizing keyOf with
  | nil => simp [collectKeys, pure_eq_ok, keyMap]
  | cons owner rest ih =>
    have hid : owner.id ∉ keyOf.map Prod.fst := by
      intro hmem
      exact (List.nodup_append.mp hids).2.2 _ hmem _ List.mem_cons_self rfl
    have hids' : ((keyOf ++ [(owner.id, owner.solanaKey)]).map Prod.fst
        ++ rest.map TreasuryOwner.id).Nodup := by
      rw [List.map_append, List.append_assoc]
      exact hids
    simp only [collectKeys, bind_eq_ok, orRevert_eq_ok, require_eq_ok, exists_const]
    constructor
    · rintro ⟨key, hkey, hnew, hrest⟩
      have hk : owner.solanaKey = key := by
        rw [TreasuryOwner.solanaKey, (truthy_eq_some.mp hkey).1]
        rfl
      subst hk
      rw [mapSet_of_not_mem hid, ih hids'] at hrest
      obtain ⟨hall, hnodup, rfl⟩ := hrest
      refine ⟨?_, List.nodup_cons.mpr ⟨?_, hnodup⟩, by simp [keyMap]⟩
      · intro o ho
        rcases List.mem_cons.mp ho with rfl | ho
        · exact ⟨by simp [hkey], hnew⟩
        · refine ⟨(hall o ho).1, fun hmem => (hall o ho).2 ?_⟩
          rw [List.map_append]
          exact List.mem_append_left _ hmem
      · intro hmem
        obtain ⟨o, ho, heq⟩ := List.mem_map.mp hmem
        refine (hall o ho).2 ?_
        rw [List.map_append, heq]
        exact List.mem_append_right _ (List.mem_singleton_self _)
    · rintro ⟨hall, hnodup, rfl⟩
      obtain ⟨hkey, hnew⟩ := hall owner List.mem_cons_self
      rw [List.map_cons, List.nodup_cons] at hnodup
      refine ⟨owner.solanaKey, truthy_ne_none_iff.mp hkey, hnew, ?_⟩
      rw [mapSet_of_not_mem hid, ih hids']
      refine ⟨?_, hnodup.2, by simp [keyMap]⟩
      intro o ho
      refine ⟨(hall o (List.mem_cons_of_mem _ ho)).1, ?_⟩
      rw [List.map_append]
      intro hmem
      rcases List.mem_append.mp hmem with hmem | hmem
      · exact (hall o (List.mem_cons_of_mem _ ho)).2 hmem
      · have heq : o.solanaKey = owner.solanaKey := by simpa using hmem
        exact hnodup.1 (List.mem_map.mpr ⟨o, ho, heq⟩)

/-- The wallets of the allowlist. -/
def walletsOf (spec : WeightedTreasurySpec) : List String :=
  spec.allowlist.filterMap AllowedRecipient.solana

theorem solanaWallets_eq_ok {allowlist : List AllowedRecipient} {r : List String} :
    solanaWallets allowlist = .ok r
      ↔ (∀ recipient ∈ allowlist, recipient.solana ≠ none)
        ∧ r = allowlist.filterMap AllowedRecipient.solana :=
  mapM_zipIdx_eq_ok

theorem walletsOf_ne_nil (hne : spec.allowlist ≠ [])
    (hall : ∀ recipient ∈ spec.allowlist, recipient.solana ≠ none) :
    (walletsOf spec).eraseDups.length ≠ 0 := by
  obtain ⟨recipient, hmem⟩ := List.exists_mem_of_ne_nil _ hne
  obtain ⟨wallet, hw⟩ := Option.ne_none_iff_exists'.mp (hall recipient hmem)
  have hin : wallet ∈ (walletsOf spec).eraseDups :=
    List.mem_eraseDups.mpr (List.mem_filterMap.mpr ⟨recipient, hmem, hw⟩)
  exact fun hzero => absurd (List.length_pos_of_mem hin) (by omega)

/-! ### The members of the game -/

def membersOf (spec : WeightedTreasurySpec) : List WeightedMember :=
  spec.owners.map TreasuryOwner.member

/-- The weight of the owners whose ids a set has. -/
def weightIn (spec : WeightedTreasurySpec) (ids : String → Bool) : ℕ :=
  ((spec.owners.filter (fun owner => ids owner.id)).map TreasuryOwner.weightNat).sum

theorem Valid.natural (h : Valid spec) : Natural (membersOf spec) := by
  intro member hmem
  obtain ⟨owner, ho, rfl⟩ := List.mem_map.mp hmem
  exact (h.owner owner ho).weight

/-- The sums over few valid owners are exact. -/
theorem Valid.exact (h : Valid spec) (hle : (membersOf spec).length ≤ maxEnumerableOwners) :
    Exact (membersOf spec) := by
  refine ⟨h.natural, ?_⟩
  have hweight : ∀ i ∈ Finset.univ, memberWeight (membersOf spec) i ≤ maxWeight := by
    intro i _
    obtain ⟨owner, ho, heq⟩ := List.mem_map.mp (List.getElem_mem i.isLt)
    have hmem : (membersOf spec)[i] = owner.member := heq.symm
    rw [memberWeight, hmem]
    exact (h.owner owner ho).weight_le
  calc totalOf (membersOf spec) ≤ (membersOf spec).length * maxWeight := by
        simpa [totalOf] using Finset.sum_le_card_nsmul _ _ maxWeight hweight
    _ ≤ maxEnumerableOwners * maxWeight := Nat.mul_le_mul_right _ hle
    _ ≤ 2 ^ 53 := by decide

theorem wins_voters_iff {t : ℕ} {ids : String → Bool} :
    Wins (memberWeight (membersOf spec)) t (voters (membersOf spec) ids)
      ↔ t ≤ weightIn spec ids := by
  have hsum := sum_positions (l := membersOf spec) (fun member => ids member.id)
    (fun member => member.weight.toNat)
  have hlist : (((membersOf spec).filter (fun member => ids member.id)).map
      (fun member => member.weight.toNat)).sum = weightIn spec ids := by
    rw [membersOf, List.filter_map, List.map_map]
    rfl
  rw [Wins, ← hlist, ← hsum]
  rfl

theorem Valid.isWinning_iff (h : Valid spec)
    (hle : (membersOf spec).length ≤ maxEnumerableOwners) {ids : String → Bool} :
    isWinning (membersOf spec) spec.thresholdWeight ids = true
      ↔ spec.thresholdWeight.toNat ≤ weightIn spec ids := by
  rw [h.threshold, Bufi.Weighted.isWinning_iff (h.exact hle), wins_voters_iff, Number.toNat_ofNat]

/-! ### What Squads gets -/

def maxPoliciesOf (options : CompileSquadsOptions) : Number :=
  options.maxPolicies.getD (.ofNat defaultMaxPolicies)

def sourceIndexOf (options : CompileSquadsOptions) : Number :=
  options.sourceAccountIndex.getD (.ofNat 0)

/-- The turn of the loop over the assets, in the compilation of a spec. -/
def assetPolicies (spec : WeightedTreasurySpec) (options : CompileSquadsOptions)
    (coalitions : List (List String)) (asset : TreasuryAsset) :
    Except Failure (List SquadsSpendingLimitPolicy) :=
  policiesOf (keyMap spec.owners) (sourceIndexOf options) (walletsOf spec).eraseDups coalitions
    asset

/-- The owners and the recipients are on Solana, each owner with a key of its own. -/
structure OnSolana (spec : WeightedTreasurySpec) : Prop where
  key : ∀ owner ∈ spec.owners, owner.solana = some owner.solanaKey
  keys_nodup : (spec.owners.map TreasuryOwner.solanaKey).Nodup
  wallet : ∀ recipient ∈ spec.allowlist, recipient.solana ≠ none

theorem collectKeys_iff (h : Valid spec) {r : List (String × String)} :
    collectKeys [] spec.owners = .ok r
      ↔ (∀ owner ∈ spec.owners, owner.solana = some owner.solanaKey)
        ∧ (spec.owners.map TreasuryOwner.solanaKey).Nodup ∧ r = keyMap spec.owners := by
  rw [collectKeys_eq_ok (by simpa using h.ids_nodup)]
  refine and_congr ?_ Iff.rfl
  refine forall₂_congr ?_
  intro owner ho
  rw [(h.owner owner ho).truthy_solana]
  simp

theorem compileSquads_eq_ok {plan : SquadsTreasuryPlan} :
    compileSquads spec options = .ok plan
      ↔ Valid spec ∧ OnSolana spec ∧ ∃ coalitions policies,
        minimalWinningCoalitions (membersOf spec) spec.thresholdWeight = .ok coalitions
        ∧ (maxPoliciesOf options).lt (.ofNat (coalitions.length * spec.assets.length)) = false
        ∧ spec.assets.mapM (assetPolicies spec options coalitions) = .ok policies
        ∧ plan = {
            programId := smartAccountProgramId
            settings := {
              signers := spec.owners.map (fun owner => signerOf (keyMap spec.owners) owner.id)
              threshold := spec.owners.length
              timeLock := spec.adminTimelockSeconds }
            policies := policies.flatten
            sourceAccountIndex := sourceIndexOf options
            notes := squadsNotes spec coalitions.length } := by
  simp only [compileSquads, bind_eq_ok, require_eq_ok, exists_const, pure_eq_ok,
    validateSpec_eq_ok, solanaWallets_eq_ok]
  constructor
  · rintro ⟨hv, keyOf, hkeys, _, ⟨hwal, rfl⟩, -, coalitions, hco, hcap, policies, hpol, rfl⟩
    obtain ⟨hkey, hnodup, rfl⟩ := (collectKeys_iff hv).mp hkeys
    exact ⟨hv, ⟨hkey, hnodup, hwal⟩, coalitions, policies, hco, hcap, hpol, rfl⟩
  · rintro ⟨hv, hs, coalitions, policies, hco, hcap, hpol, rfl⟩
    exact ⟨hv, _, (collectKeys_iff hv).mpr ⟨hs.key, hs.keys_nodup, rfl⟩, _, ⟨hs.wallet, rfl⟩,
      walletsOf_ne_nil hv.allowlist_ne hs.wallet, coalitions, hco, hcap, policies, hpol, rfl⟩

/-- The limits of the policies for an asset. -/
def maxPerPeriodOf (asset : TreasuryAsset) : ℤ := asset.budget.elim u64Max Budget.maxPerPeriod

def maxPerUseOf (asset : TreasuryAsset) : ℤ := (asset.budget.bind Budget.maxPerUse).getD 0

/-- A policy of a spec: it belongs to an asset and a coalition. -/
structure PolicyFor (spec : WeightedTreasurySpec) (a : TreasuryAsset) (c : List String)
    (p : SquadsSpendingLimitPolicy) : Prop where
  coalition : p.coalition = c
  asset : p.asset = a.symbol
  mint : mintOf a = .ok p.payload.mint
  signers : p.signers = c.map (signerOf (keyMap spec.owners))
  threshold : p.threshold = c.length
  destinations : p.payload.destinations = (walletsOf spec).eraseDups
  maxPerPeriod : p.payload.quantityConstraints.maxPerPeriod = maxPerPeriodOf a
  maxPerUse : p.payload.quantityConstraints.maxPerUse = maxPerUseOf a

theorem policyFor_of_eq_ok {asset : TreasuryAsset} {coalition : List String} {mint : String}
    {p : SquadsSpendingLimitPolicy} (hmint : mintOf asset = .ok mint)
    (h : policyOf (keyMap spec.owners) (sourceIndexOf options) (walletsOf spec).eraseDups asset mint
      coalition = .ok p) : PolicyFor spec asset coalition p := by
  simp only [policyOf, bind_eq_ok, pure_eq_ok] at h
  obtain ⟨period, -, rfl⟩ := h
  exact ⟨rfl, rfl, hmint, rfl, rfl, rfl, rfl, rfl⟩

theorem assetPolicies_eq_ok {coalitions : List (List String)} {asset : TreasuryAsset}
    {ps : List SquadsSpendingLimitPolicy} :
    assetPolicies spec options coalitions asset = .ok ps
      ↔ ∃ mint, mintOf asset = .ok mint
        ∧ (mint = nativeSolMint → asset.solanaDecimals.all (fun decimals =>
          decide (decimals = .ofNat 9)) = true)
        ∧ coalitions.mapM (policyOf (keyMap spec.owners) (sourceIndexOf options)
          (walletsOf spec).eraseDups asset mint) = .ok ps := by
  simp only [assetPolicies, policiesOf, bind_eq_ok, require_eq_ok, exists_const]

/-- What is emitted belongs to an asset and a coalition. -/
theorem exists_policyFor {coalitions : List (List String)}
    {policies : List (List SquadsSpendingLimitPolicy)}
    (h : spec.assets.mapM (assetPolicies spec options coalitions) = .ok policies)
    {p : SquadsSpendingLimitPolicy} (hp : p ∈ policies.flatten) :
    ∃ asset ∈ spec.assets, ∃ coalition ∈ coalitions, PolicyFor spec asset coalition p := by
  obtain ⟨ps, hps, hp⟩ := List.mem_flatten.mp hp
  obtain ⟨asset, hasset, hok⟩ := mapM_right h hps
  obtain ⟨mint, hmint, -, hok⟩ := assetPolicies_eq_ok.mp hok
  obtain ⟨coalition, hc, hok⟩ := mapM_right hok hp
  exact ⟨asset, hasset, coalition, hc, policyFor_of_eq_ok hmint hok⟩

/-- Every asset and every coalition has a policy. -/
theorem exists_policy {coalitions : List (List String)}
    {policies : List (List SquadsSpendingLimitPolicy)}
    (h : spec.assets.mapM (assetPolicies spec options coalitions) = .ok policies)
    {asset : TreasuryAsset} (hasset : asset ∈ spec.assets) {coalition : List String}
    (hc : coalition ∈ coalitions) :
    ∃ p ∈ policies.flatten, PolicyFor spec asset coalition p := by
  obtain ⟨ps, hps, hok⟩ := mapM_left h hasset
  obtain ⟨mint, hmint, -, hok⟩ := assetPolicies_eq_ok.mp hok
  obtain ⟨p, hp, hok⟩ := mapM_left hok hc
  exact ⟨p, List.mem_flatten.mpr ⟨ps, hps, hp⟩, policyFor_of_eq_ok hmint hok⟩

/-! ### Who can sign -/

/-- The Solana keys of a set of owners. -/
def SolanaKeys (spec : WeightedTreasurySpec) (ids : String → Bool) (key : String) : Prop :=
  ∃ owner ∈ spec.owners, ids owner.id = true ∧ owner.solana = some key

/-- The holders of some keys can execute a policy: every signer is among them,
and the threshold is the number of signers. -/
def SquadsSpendingLimitPolicy.ExecutableBy (p : SquadsSpendingLimitPolicy) (keys : String → Prop) :
    Prop :=
  (∀ signer ∈ p.signers, keys signer.key) ∧ p.threshold = p.signers.length

theorem Valid.signerOf_key (h : Valid spec) {owner : TreasuryOwner} (ho : owner ∈ spec.owners) :
    (signerOf (keyMap spec.owners) owner.id).key = owner.solanaKey := by
  have hids : ((keyMap spec.owners).map Prod.fst).Nodup := by
    rw [keyMap, List.map_map]
    exact h.ids_nodup
  have hmem : (owner.id, owner.solanaKey) ∈ keyMap spec.owners := List.mem_map_of_mem ho
  rw [signerOf, lookup_of_mem hids hmem]
  rfl

theorem OnSolana.owner_eq (h : OnSolana spec) {o o' : TreasuryOwner} (ho : o ∈ spec.owners)
    (ho' : o' ∈ spec.owners) (heq : o.solanaKey = o'.solanaKey) : o = o' :=
  List.inj_on_of_nodup_map h.keys_nodup ho ho' heq

/-- The key of an owner belongs to a set when the owner does. -/
theorem solanaKeys_solanaKey (h : OnSolana spec) {owner : TreasuryOwner}
    (ho : owner ∈ spec.owners) {ids : String → Bool} :
    SolanaKeys spec ids owner.solanaKey ↔ ids owner.id = true := by
  constructor
  · rintro ⟨o, hmem, hids, hkey⟩
    rw [h.key o hmem] at hkey
    rwa [h.owner_eq hmem ho (Option.some.inj hkey)] at hids
  · intro hids
    exact ⟨owner, ho, hids, h.key owner ho⟩

theorem exists_owner_of_mem_coalitionOf {mask : ℕ} {id : String}
    (hid : id ∈ coalitionOf (membersOf spec) mask) : ∃ owner ∈ spec.owners, owner.id = id := by
  obtain ⟨i, -, rfl⟩ := mem_coalitionOf.mp hid
  obtain ⟨owner, ho, heq⟩ := List.mem_map.mp (List.getElem_mem (l := membersOf spec) i.isLt)
  exact ⟨owner, ho, congrArg WeightedMember.id heq⟩

/-- **A set of owners can sign for a coalition when it contains it.** -/
theorem PolicyFor.executableBy_iff {asset : TreasuryAsset} {mask : ℕ}
    {p : SquadsSpendingLimitPolicy} (hv : Valid spec) (hs : OnSolana spec)
    (hp : PolicyFor spec asset (coalitionOf (membersOf spec) mask) p) {ids : String → Bool} :
    p.ExecutableBy (SolanaKeys spec ids)
      ↔ ∀ id ∈ coalitionOf (membersOf spec) mask, ids id = true := by
  have hlen : p.threshold = p.signers.length := by
    rw [hp.threshold, hp.signers, List.length_map]
  refine Iff.trans (and_iff_left hlen) ?_
  rw [hp.signers, List.forall_mem_map]
  refine forall₂_congr ?_
  intro id hid
  obtain ⟨owner, ho, rfl⟩ := exists_owner_of_mem_coalitionOf hid
  rw [hv.signerOf_key ho, solanaKeys_solanaKey hs ho]

/-! ### The rule on Squads -/

/-- **The policies of a plan have the rule of the spec**: a set of owners can
execute one of them for an asset exactly when its weight reaches the threshold;
money goes to the wallets of the allowlist only; and no proper part of the
signers of a policy wins. -/
structure SquadsPreserves (spec : WeightedTreasurySpec) (plan : SquadsTreasuryPlan) : Prop where
  rule : ∀ asset ∈ spec.assets, ∀ ids : String → Bool,
    (∃ p ∈ plan.policies, p.asset = asset.symbol ∧ mintOf asset = .ok p.payload.mint
        ∧ p.ExecutableBy (SolanaKeys spec ids))
      ↔ spec.thresholdWeight.toNat ≤ weightIn spec ids
  destinations_ne : ∀ p ∈ plan.policies, p.payload.destinations ≠ []
  destinations : ∀ p ∈ plan.policies, ∀ wallet, wallet ∈ p.payload.destinations
    ↔ ∃ recipient ∈ spec.allowlist, recipient.solana = some wallet
  minimal : ∀ p ∈ plan.policies, ∀ ids : String → Bool,
    (∀ key, SolanaKeys spec ids key → ∃ signer ∈ p.signers, signer.key = key) →
    (∃ signer ∈ p.signers, ¬ SolanaKeys spec ids signer.key) →
    weightIn spec ids < spec.thresholdWeight.toNat

/-- The owners of a proper part of a coalition do not win. -/
theorem PolicyFor.not_wins {asset : TreasuryAsset} {mask t : ℕ} {p : SquadsSpendingLimitPolicy}
    (hv : Valid spec) (hs : OnSolana spec)
    (hp : PolicyFor spec asset (coalitionOf (membersOf spec) mask) p)
    (hmin : Minimal (Wins (memberWeight (membersOf spec)) t) (bits (membersOf spec).length mask))
    {ids : String → Bool}
    (hsub : ∀ key, SolanaKeys spec ids key → ∃ signer ∈ p.signers, signer.key = key)
    (hout : ∃ signer ∈ p.signers, ¬ SolanaKeys spec ids signer.key) : weightIn spec ids < t := by
  rw [← Nat.not_le, ← wins_voters_iff]
  refine hmin.not_prop_of_lt ⟨?_, ?_⟩
  · intro i hi
    have hids : ids (membersOf spec)[i].id = true := mem_positions.mp hi
    obtain ⟨owner, ho, heq⟩ := List.mem_map.mp (List.getElem_mem (l := membersOf spec) i.isLt)
    have hid : (membersOf spec)[i].id = owner.id := (congrArg WeightedMember.id heq).symm
    rw [hid] at hids
    obtain ⟨signer, hsig, hkey⟩ := hsub _ ((solanaKeys_solanaKey hs ho).mpr hids)
    rw [hp.signers] at hsig
    obtain ⟨id, hmem, rfl⟩ := List.mem_map.mp hsig
    -- the signer with the owner's key is the owner, and ids are distinct
    obtain ⟨owner', ho', rfl⟩ := exists_owner_of_mem_coalitionOf hmem
    rw [hv.signerOf_key ho'] at hkey
    obtain rfl := hs.owner_eq ho' ho hkey
    obtain ⟨j, hj, hji⟩ := mem_coalitionOf.mp hmem
    have hnodup : ((membersOf spec).map WeightedMember.id).Nodup := by
      rw [membersOf, List.map_map]
      exact hv.ids_nodup
    have hij : i = j := by
      have hlen : (membersOf spec).length = ((membersOf spec).map WeightedMember.id).length := by
        simp
      have hget : ((membersOf spec).map WeightedMember.id).get (i.cast hlen)
          = ((membersOf spec).map WeightedMember.id).get (j.cast hlen) := by
        simpa using hid.trans hji.symm
      exact Fin.cast_injective hlen (hnodup.injective_get hget)
    rwa [hij]
  · obtain ⟨signer, hsig, hnot⟩ := hout
    rw [hp.signers] at hsig
    obtain ⟨id, hmem, rfl⟩ := List.mem_map.mp hsig
    obtain ⟨j, hj, hji⟩ := mem_coalitionOf.mp hmem
    intro hle
    have hids : ids (membersOf spec)[j].id = true := mem_positions.mp (hle hj)
    obtain ⟨owner, ho, rfl⟩ := exists_owner_of_mem_coalitionOf hmem
    rw [hji] at hids
    rw [hv.signerOf_key ho, solanaKeys_solanaKey hs ho] at hnot
    exact hnot hids

theorem squadsPreserves {plan : SquadsTreasuryPlan} (h : compileSquads spec options = .ok plan) :
    SquadsPreserves spec plan := by
  obtain ⟨hv, hs, coalitions, policies, hco, -, hpol, rfl⟩ := compileSquads_eq_ok.mp h
  rw [hv.threshold] at hco
  have hpos := hv.threshold_pos
  have hfew := (minimalWinningCoalitions_eq_ok.mp hco).1
  have hexact := hv.exact hfew
  have hlisted := fun {c : List String} => mem_minimalWinningCoalitions hexact hco (c := c)
  refine ⟨?_, ?_, ?_, ?_⟩
  · intro asset hasset ids
    have hwin : isWinning (membersOf spec) (.ofNat spec.thresholdWeight.toNat) ids = true ↔ _ :=
      isWinning_iff_exists_coalition hexact hpos hco
    rw [← hv.threshold, hv.isWinning_iff hfew] at hwin
    rw [hwin]
    constructor
    · rintro ⟨p, hp, -, -, hexec⟩
      obtain ⟨a, -, c, hc, hfor⟩ := exists_policyFor hpol hp
      obtain ⟨mask, -, -, -, rfl⟩ := hlisted.mp hc
      exact ⟨_, hc, (hfor.executableBy_iff hv hs).mp hexec⟩
    · rintro ⟨c, hc, hall⟩
      obtain ⟨p, hp, hfor⟩ := exists_policy hpol hasset hc
      obtain ⟨mask, -, -, -, rfl⟩ := hlisted.mp hc
      exact ⟨p, hp, hfor.asset, hfor.mint, (hfor.executableBy_iff hv hs).mpr hall⟩
  · intro p hp hempty
    obtain ⟨a, -, c, -, hfor⟩ := exists_policyFor hpol hp
    rw [hfor.destinations] at hempty
    exact walletsOf_ne_nil hv.allowlist_ne hs.wallet (by rw [hempty]; rfl)
  · intro p hp wallet
    obtain ⟨a, -, c, -, hfor⟩ := exists_policyFor hpol hp
    rw [hfor.destinations, List.mem_eraseDups, walletsOf, List.mem_filterMap]
  · intro p hp ids hsub hout
    obtain ⟨a, -, c, hc, hfor⟩ := exists_policyFor hpol hp
    obtain ⟨mask, -, -, hmin, rfl⟩ := hlisted.mp hc
    exact hfor.not_wins hv hs hmin hsub hout

/-- What Squads can express: keys and wallets on Solana, few enough owners and
policies, and assets with a mint. -/
structure SquadsExpressible (spec : WeightedTreasurySpec) (options : CompileSquadsOptions) : Prop where
  onSolana : OnSolana spec
  owners_le : spec.owners.length ≤ maxEnumerableOwners
  policies_le : (maxPoliciesOf options).lt (.ofNat
    (Nat.card {m // Minimal (Wins (memberWeight (membersOf spec)) spec.thresholdWeight.toNat) m}
      * spec.assets.length)) = false
  mint : ∀ asset ∈ spec.assets, asset.solanaMint ≠ none
  decimals : ∀ asset ∈ spec.assets,
    asset.solanaMint = some "native" ∨ asset.solanaMint = some nativeSolMint →
    ∀ decimals, asset.solanaDecimals = some decimals → decimals = .ofNat 9

theorem mintOf_eq_ok {asset : TreasuryAsset} {mint : String} :
    mintOf asset = .ok mint
      ↔ asset.solanaMint = some "native" ∧ mint = nativeSolMint
        ∨ asset.solanaMint ≠ some "native" ∧ asset.solanaMint = some mint := by
  rw [mintOf]
  split_ifs with h
  · simp [h, pure_eq_ok]
  · simp [h]

theorem exists_periodOf {asset : TreasuryAsset}
    (h : ∀ budget, asset.budget = some budget → ValidBudget budget) :
    ∃ period, periodOf asset = .ok period := by
  rw [periodOf]
  cases hb : asset.budget with
  | none => exact ⟨_, rfl⟩
  | some budget =>
    cases hp : budget.period with
    | custom secs =>
      obtain ⟨n, -, rfl⟩ := (h budget hb).period secs hp
      refine ⟨.custom n, ?_⟩
      simp only [hp, toSquadsPeriod, bind_eq_ok, orRevert_eq_ok, pure_eq_ok]
      exact ⟨n, Number.toInt?_ofInt n, rfl⟩
    | oneTime | daily | weekly | monthly => simp [hp, toSquadsPeriod, pure, Except.pure]

/-- An asset has policies when it has a mint, with the decimals of the native one. -/
theorem exists_assetPolicies {coalitions : List (List String)} {asset : TreasuryAsset}
    (h : ∀ budget, asset.budget = some budget → ValidBudget budget) :
    (∃ ps, assetPolicies spec options coalitions asset = .ok ps)
      ↔ asset.solanaMint ≠ none
        ∧ (asset.solanaMint = some "native" ∨ asset.solanaMint = some nativeSolMint →
          ∀ decimals, asset.solanaDecimals = some decimals → decimals = .ofNat 9) := by
  have hpolicy : ∀ mint, ∃ ps, coalitions.mapM (policyOf (keyMap spec.owners)
      (sourceIndexOf options) (walletsOf spec).eraseDups asset mint) = .ok ps := by
    intro mint
    refine exists_mapM.mpr ?_
    intro c _
    obtain ⟨period, hp⟩ := exists_periodOf h
    simp only [policyOf, bind_eq_ok, hp, pure_eq_ok]
    exact ⟨_, period, rfl, rfl⟩
  simp only [assetPolicies_eq_ok, mintOf_eq_ok, option_all_iff, decide_eq_true_eq]
  constructor
  · rintro ⟨ps, mint, hmint, hdec, -⟩
    rcases hmint with ⟨hn, rfl⟩ | ⟨hn, hm⟩
    · exact ⟨by simp [hn], fun _ => hdec rfl⟩
    · refine ⟨by simp [hm], ?_⟩
      rintro (hn' | hn')
      · exact absurd hn' hn
      · exact hdec (Option.some.inj (hm.symm.trans hn'))
  · rintro ⟨hne, hdec⟩
    by_cases hn : asset.solanaMint = some "native"
    · obtain ⟨ps, hps⟩ := hpolicy nativeSolMint
      exact ⟨ps, _, Or.inl ⟨hn, rfl⟩, fun _ => hdec (Or.inl hn), hps⟩
    · obtain ⟨mint, hm⟩ := Option.ne_none_iff_exists'.mp hne
      obtain ⟨ps, hps⟩ := hpolicy mint
      refine ⟨ps, mint, Or.inr ⟨hn, hm⟩, ?_, hps⟩
      rintro rfl
      exact hdec (Or.inr hm)

theorem compileSquads_isOk_iff :
    (∃ plan, compileSquads spec options = .ok plan)
      ↔ Valid spec ∧ SquadsExpressible spec options := by
  simp only [compileSquads_eq_ok]
  constructor
  · rintro ⟨plan, hv, hs, coalitions, policies, hco, hcap, hpol, -⟩
    rw [hv.threshold] at hco
    obtain ⟨hle, rfl⟩ := minimalWinningCoalitions_eq_ok.mp hco
    rw [List.length_map, List.length_insertionSort,
      length_minimalMasks (hv.exact hle) hv.threshold_pos] at hcap
    have hassets := fun asset hasset => (exists_assetPolicies (hv.budget asset hasset)).mp
      (exists_mapM.mp ⟨policies, hpol⟩ asset hasset)
    exact ⟨hv, hs, by simpa [membersOf] using hle, hcap, fun a ha => (hassets a ha).1,
      fun a ha => (hassets a ha).2⟩
  · rintro ⟨hv, he⟩
    have hle : (membersOf spec).length ≤ maxEnumerableOwners := by
      simpa [membersOf] using he.owners_le
    have hco : minimalWinningCoalitions (membersOf spec) spec.thresholdWeight = .ok _ :=
      minimalWinningCoalitions_eq_ok.mpr ⟨hle, rfl⟩
    have hassets : ∀ coalitions, ∀ asset ∈ spec.assets,
        ∃ ps, assetPolicies spec options coalitions asset = .ok ps :=
      fun coalitions asset hasset => (exists_assetPolicies (hv.budget asset hasset)).mpr
        ⟨he.mint asset hasset, he.decimals asset hasset⟩
    obtain ⟨policies, hpol⟩ := exists_mapM.mpr (hassets _)
    refine ⟨_, hv, he.onSolana, _, policies, hco, ?_, hpol, rfl⟩
    have hcap := he.policies_le
    rw [← length_minimalMasks (hv.exact hle) hv.threshold_pos, ← hv.threshold] at hcap
    rwa [List.length_map, List.length_insertionSort]

end

/-! ### The rule on EVM -/

section

variable {toLowerCase : String → String} {spec : WeightedTreasurySpec}

/-- What the EVM backend can express: addresses for everybody, one for each owner,
and no budgets. -/
structure EvmExpressible (toLowerCase : String → String) (spec : WeightedTreasurySpec) : Prop where
  owners_le : spec.owners.length ≤ maxEvmOwners
  address : ∀ owner ∈ spec.owners, owner.evm = some owner.evmAddress
  addresses_nodup : (spec.owners.map (fun owner => toLowerCase owner.evmAddress)).Nodup
  recipient : ∀ recipient ∈ spec.allowlist, truthy recipient.evm ≠ none
  no_budget : ∀ asset ∈ spec.assets, asset.budget = none

def TreasuryOwner.onEvm (toLowerCase : String → String) (owner : TreasuryOwner) : EvmOwner :=
  ⟨toLowerCase owner.evmAddress, owner.weightNat⟩

theorem evmOwner_eq_ok {owner : TreasuryOwner} (h : ValidOwner owner) (r : EvmOwner) :
    evmOwner toLowerCase owner = .ok r
      ↔ owner.evm = some owner.evmAddress ∧ r = owner.onEvm toLowerCase := by
  have hweight : owner.weight.toInt? = some (owner.weightNat : ℤ) := by
    rw [h.weight]
    exact Number.toInt?_ofInt _
  simp only [evmOwner, bind_eq_ok, orRevert_eq_ok, pure_eq_ok, hweight, Option.some.injEq]
  constructor
  · rintro ⟨address, haddr, _, rfl, rfl⟩
    have hevm := h.truthy_evm.mp (by simp [haddr])
    have haddr := (truthy_eq_some.mp haddr).1
    rw [hevm] at haddr
    rw [← Option.some.inj haddr]
    exact ⟨hevm, rfl⟩
  · rintro ⟨hevm, rfl⟩
    exact ⟨_, truthy_ne_none_iff.mp (h.truthy_evm.mpr hevm), _, rfl, rfl⟩

theorem checkAddresses_eq_ok {seen : List String} {owners : List EvmOwner} {u : Unit} :
    checkAddresses seen owners = .ok u
      ↔ (∀ owner ∈ owners, owner.address ∉ seen) ∧ (owners.map EvmOwner.address).Nodup := by
  induction owners generalizing seen with
  | nil => simp [checkAddresses, pure_eq_ok]
  | cons owner rest ih =>
    simp only [checkAddresses, bind_eq_ok, require_eq_ok, exists_const, ih, List.mem_append,
      List.mem_singleton, not_or, List.forall_mem_cons, List.map_cons, List.nodup_cons,
      List.mem_map, not_exists, not_and]
    constructor
    · rintro ⟨hnew, hall, hnodup⟩
      exact ⟨⟨hnew, fun o ho => (hall o ho).1⟩, fun o ho => (hall o ho).2, hnodup⟩
    · rintro ⟨⟨hnew, hall⟩, hne, hnodup⟩
      exact ⟨hnew, fun o ho => ⟨hall o ho, hne o ho⟩, hnodup⟩

theorem evmRecipients_eq_ok {allowlist : List AllowedRecipient} {r : List String} :
    evmRecipients toLowerCase allowlist = .ok r
      ↔ (∀ recipient ∈ allowlist, truthy recipient.evm ≠ none)
        ∧ r = allowlist.filterMap (fun recipient => (truthy recipient.evm).map toLowerCase) := by
  have hturn : evmRecipients toLowerCase allowlist = allowlist.zipIdx.mapM (fun x =>
      orRevert ((truthy x.1.evm).map toLowerCase)
        (failEvm (.noEvmRecipient (entryName x.1 x.2)))) := by
    rw [evmRecipients]
    congr 1
    funext x
    cases truthy x.1.evm with
    | none => rfl
    | some address => rfl
  rw [hturn]
  refine Iff.trans (mapM_zipIdx_eq_ok
    (f := fun recipient : AllowedRecipient => (truthy recipient.evm).map toLowerCase)) ?_
  simp

theorem checkNoBudget_eq_ok {assets : List TreasuryAsset} {u : Unit} :
    checkNoBudget assets = .ok u ↔ ∀ asset ∈ assets, asset.budget = none := by
  induction assets with
  | nil => simp [checkNoBudget, pure_eq_ok]
  | cons asset rest ih =>
    simp only [checkNoBudget, bind_eq_ok, require_eq_ok, exists_const, ih, List.forall_mem_cons]

theorem compileEvm_eq_ok {cfg : EvmTreasuryConfig} :
    compileEvm toLowerCase spec = .ok cfg
      ↔ Valid spec ∧ EvmExpressible toLowerCase spec ∧ cfg = {
          owners := spec.owners.map (TreasuryOwner.onEvm toLowerCase)
          thresholdWeight := spec.thresholdWeight.toNat
          allowlist := (spec.allowlist.filterMap
            (fun recipient => (truthy recipient.evm).map toLowerCase)).eraseDups
          notes := if (Number.ofNat 0).lt spec.adminTimelockSeconds then
            [.timelockOnSquadsOnly spec.adminTimelockSeconds] else [] } := by
  simp only [compileEvm, bind_eq_ok, require_eq_ok, exists_const, validateSpec_eq_ok,
    checkAddresses_eq_ok, evmRecipients_eq_ok, checkNoBudget_eq_ok, orRevert_eq_ok, pure_eq_ok]
  constructor
  · rintro ⟨hv, hle, owners, hown, ⟨-, hnodup⟩, _, ⟨hrec, rfl⟩, hbud, t, ht, rfl⟩
    obtain ⟨haddr, rfl⟩ := (mapM_eq_map (fun o ho => evmOwner_eq_ok (hv.owner o ho))).mp hown
    rw [List.map_map] at hnodup
    refine ⟨hv, ⟨hle, haddr, hnodup, hrec, hbud⟩, ?_⟩
    rw [hv.threshold] at ht
    rw [← Option.some.inj ((Number.toInt?_ofInt _).symm.trans ht)]
  · rintro ⟨hv, he, rfl⟩
    have ht : spec.thresholdWeight.toInt? = some (spec.thresholdWeight.toNat : ℤ) := by
      rw [hv.threshold, Number.toNat_ofNat]
      exact Number.toInt?_ofInt _
    refine ⟨hv, he.owners_le, _,
      (mapM_eq_map (fun o ho => evmOwner_eq_ok (hv.owner o ho))).mpr ⟨he.address, rfl⟩,
      ⟨by simp, ?_⟩, _, ⟨he.recipient, rfl⟩, he.no_budget, _, ht, rfl⟩
    rw [List.map_map]
    exact he.addresses_nodup

/-- The rule of the weighted multisig: the weights of the approving addresses
reach the threshold. -/
def EvmTreasuryConfig.accepts (cfg : EvmTreasuryConfig) (approving : String → Bool) : Bool :=
  decide (cfg.thresholdWeight
    ≤ ((cfg.owners.filter (fun owner => approving owner.address)).map EvmOwner.weight).sum)

/-- The EVM addresses of a set of owners. -/
def evmAddresses (toLowerCase : String → String) (spec : WeightedTreasurySpec)
    (ids : String → Bool) (address : String) : Bool :=
  spec.owners.any (fun owner => ids owner.id && decide (toLowerCase owner.evmAddress = address))

theorem accepts_iff {cfg : EvmTreasuryConfig} (h : compileEvm toLowerCase spec = .ok cfg)
    (ids : String → Bool) :
    cfg.accepts (evmAddresses toLowerCase spec ids) = true
      ↔ spec.thresholdWeight.toNat ≤ weightIn spec ids := by
  obtain ⟨hv, he, rfl⟩ := compileEvm_eq_ok.mp h
  have hmem : ∀ owner ∈ spec.owners,
      evmAddresses toLowerCase spec ids (owner.onEvm toLowerCase).address = ids owner.id := by
    intro owner ho
    rw [Bool.eq_iff_iff, evmAddresses, List.any_eq_true]
    constructor
    · rintro ⟨o, hmem, hand⟩
      obtain ⟨hids, heq⟩ := Bool.and_eq_true_iff.mp hand
      rwa [List.inj_on_of_nodup_map he.addresses_nodup hmem ho (of_decide_eq_true heq)] at hids
    · intro hids
      exact ⟨owner, ho, by simp [hids, TreasuryOwner.onEvm]⟩
  have hfilter : spec.owners.filter (fun owner =>
        evmAddresses toLowerCase spec ids (owner.onEvm toLowerCase).address)
      = spec.owners.filter (fun owner => ids owner.id) := List.filter_congr hmem
  have hsum : (((spec.owners.map (TreasuryOwner.onEvm toLowerCase)).filter (fun owner =>
      evmAddresses toLowerCase spec ids owner.address)).map EvmOwner.weight).sum
        = (weightIn spec ids : ℤ) := by
    rw [List.filter_map, List.map_map, weightIn, Nat.cast_list_sum, List.map_map]
    exact congrArg (fun l : List TreasuryOwner => (l.map (fun o => (o.weightNat : ℤ))).sum) hfilter
  rw [EvmTreasuryConfig.accepts, decide_eq_true_iff]
  simp only [hsum]
  exact Nat.cast_le

theorem compileEvm_isOk_iff :
    (∃ cfg, compileEvm toLowerCase spec = .ok cfg)
      ↔ Valid spec ∧ EvmExpressible toLowerCase spec := by
  simp only [compileEvm_eq_ok]
  constructor
  · rintro ⟨cfg, hv, he, -⟩
    exact ⟨hv, he⟩
  · rintro ⟨hv, he⟩
    exact ⟨_, hv, he, rfl⟩

/-! ### Both -/

/-- **Both backends keep the weighted rule, or refuse.** -/
theorem weightedRule_preserved (toLowerCase : String → String) (spec : WeightedTreasurySpec)
    (options : CompileSquadsOptions) :
    (∀ plan, compileSquads spec options = .ok plan → SquadsPreserves spec plan)
      ∧ (∀ cfg, compileEvm toLowerCase spec = .ok cfg → ∀ ids : String → Bool,
        cfg.accepts (evmAddresses toLowerCase spec ids) = true
          ↔ spec.thresholdWeight.toNat ≤ weightIn spec ids)
      ∧ ((∃ plan, compileSquads spec options = .ok plan)
        ↔ Valid spec ∧ SquadsExpressible spec options)
      ∧ ((∃ cfg, compileEvm toLowerCase spec = .ok cfg)
        ↔ Valid spec ∧ EvmExpressible toLowerCase spec) :=
  ⟨fun _ h => squadsPreserves h, fun _ h => accepts_iff h, compileSquads_isOk_iff,
    compileEvm_isOk_iff⟩

end

/-! ### An example -/

def demoKeys : List String :=
  ["7xKXtg2CW87d97TXJSDpbD5jBkheTqA83TZRuJosgAsU", "9WzDXwBbmkg8ZTbNMqUxvQRAyrZzDsGYdLVL9zYtAWWM",
    "GQ6x9QZ1yYbJkJ5hY6gH6k6wJ8xQ5Zt2bYhXr8uUPd3V"]

def demoAddresses : List String :=
  ["0x0000000000000000000000000000000000000001", "0x0000000000000000000000000000000000000002",
    "0x000000000000000000000000000000000000000A"]

def demoMint : String := "4zMMC9srt5Ri5X14GAgXhaHii3GnPAEERYPJgZJDncDU"

/-- A spec with up to three owners `"o0"`, `"o1"`, `"o2"`. -/
def demoSpec (weights : List ℕ) (threshold : ℕ) (budget : Option Budget) : WeightedTreasurySpec where
  version := .ofNat 1
  owners := weights.zipIdx.map (fun x =>
    ⟨"o" ++ toString x.2, .ofNat x.1, demoAddresses[x.2]?, demoKeys[x.2]?⟩)
  thresholdWeight := .ofNat threshold
  allowlist := [⟨some "payroll", some "0x00000000000000000000000000000000000000aa",
    some "AQoKYV7tYpTrFZN6P5oUufbQKAUr9mNYGe1TTJC9wajM"⟩]
  assets := [⟨"USDC", some demoMint, some (.ofNat 6), budget⟩]
  adminTimelockSeconds := .ofNat 86400

/-- The owners `A = 2`, `B = 1`, `C = 1` at a threshold of `3`. -/
theorem weightedRule_preserved_demoSpec :
    ∃ plan cfg, compileSquads (demoSpec [2, 1, 1] 3 none) ⟨none, none⟩ = .ok plan
      ∧ compileEvm String.toLower (demoSpec [2, 1, 1] 3 none) = .ok cfg
      ∧ plan.policies.map SquadsSpendingLimitPolicy.coalition = [["o0", "o1"], ["o0", "o2"]]
      ∧ SquadsPreserves (demoSpec [2, 1, 1] 3 none) plan
      ∧ ∀ ids : String → Bool,
        cfg.accepts (evmAddresses String.toLower (demoSpec [2, 1, 1] 3 none) ids) = true
          ↔ 3 ≤ weightIn (demoSpec [2, 1, 1] 3 none) ids := by
  have hsquads : ((compileSquads (demoSpec [2, 1, 1] 3 none) ⟨none, none⟩).toOption.map (fun plan =>
      plan.policies.map SquadsSpendingLimitPolicy.coalition))
        = some [["o0", "o1"], ["o0", "o2"]] := by decide +kernel
  have hevm : (compileEvm String.toLower (demoSpec [2, 1, 1] 3 none)).toOption.isSome := by
    decide +kernel
  obtain ⟨plan, hplan, hout⟩ := Option.map_eq_some_iff.mp hsquads
  obtain ⟨cfg, hcfg⟩ := Option.isSome_iff_exists.mp hevm
  have hplan := toOption_eq_some.mp hplan
  have hcfg := toOption_eq_some.mp hcfg
  obtain ⟨h1, h2, -, -⟩ := weightedRule_preserved String.toLower (demoSpec [2, 1, 1] 3 none)
    ⟨none, none⟩
  exact ⟨plan, cfg, hplan, hcfg, hout, h1 plan hplan, h2 cfg hcfg⟩

end Bufi.Weighted
