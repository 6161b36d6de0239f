import Bufi.Send.Validate

/-!
# FROST signing and the quorum of the treasury

Three parts count one quorum: the treasury adds weights of addresses,
`validateSend` adds weights of labels, and `sign` counts share ids.  Where
`frostDrift` finds nothing, an owner has as many shares as weight, and no range of
the DKG has wrapped, since its owner would have no share.  So the shares of
different owners are disjoint (`Agrees.separated`) and the three sums agree
(`Agrees.frostRealises`), as long as the shares that `frostDrift` has counted are
entries of `owners.json`: `OwnEntries`.

A label that is the name of an inherited function passes the comparison without
one.  Together with all share holders its owner passes `validateSend` with a weight
that reaches the threshold, and `sign` does not know the label
(`Agrees.ownEntries`).
-/

namespace Bufi.Send

open Bufi.Evm Bufi.Js Bufi.Treasury

/-! ### What is to hold -/

/-- The owners on the chain that some labels stand for. -/
def addressesOf (pol : TreasuryPolicy) (ids : List String) : List Address :=
  ids.filterMap (fun id => (ownerOf pol id).map Owner.address)

/-- The shares of some owners pass the check of `sign`. -/
def CanSign (frost : Owners) (ids : List String) : Prop :=
  ∃ shares, signCheck frost (joinComma ids) = .ok shares

/-- The weight that `validateSend` computed, the shares and the weights on the
chain reach the threshold together. -/
structure SameQuorum (S : Signers) (pol : TreasuryPolicy) (frost : Owners) (r : SendPlan) :
    Prop where
  sign_iff : CanSign frost r.signers ↔ pol.thresholdWeight.le r.weight = true
  quorum_iff : pol.thresholdWeight.le r.weight = true
    ↔ S.thresholdWeight.toNat ≤ S.weightOf (addressesOf pol r.signers)
  distinct : (addressesOf pol r.signers).Nodup
  owners : addressesOf pol r.signers ⊆ S.owners
  length_eq : (addressesOf pol r.signers).length = r.signers.length

/-- Two requests that differ in the order and the repetition of the signers. -/
structure SameSigners (a b : SendRequest) : Prop where
  rest : { a with signers := none } = { b with signers := none }
  signers : ∀ id, id ∈ a.signers.getD [] ↔ id ∈ b.signers.getD []

/-- What a list of labels, in any order and with any repetitions and unknown labels,
gets from `sign`. -/
structure FairSign (S : Signers) (pol : TreasuryPolicy) (frost : Owners) : Prop where
  nodup : ∀ signers ids, signCheck frost signers = .ok ids → ids.Nodup
  labels : ∀ signers ids, signCheck frost signers = .ok ids →
    (splitChar ',' signers).Nodup ∧ ∀ label ∈ splitChar ',' signers, isOwner pol label = true
  quorum : ∀ signers ids, signCheck frost signers = .ok ids →
    S.thresholdWeight.toNat ≤ S.weightOf (addressesOf pol (splitChar ',' signers))
  order : ∀ signers signers' ids, (splitChar ',' signers).Perm (splitChar ',' signers') →
    signCheck frost signers = .ok ids → signCheck frost signers' = .ok ids

/-- FROST signing realises the quorum of the treasury. -/
structure FrostRealises (v : Viem) (S : Signers) (pol : TreasuryPolicy) (frost : Owners) :
    Prop where
  same : ∀ req allowlisted balances r,
    validateSend v ⟨req, pol, allowlisted, balances, some frost⟩ = .ok r → r.source = .solana →
      SameQuorum S pol frost r
  repeated : ∀ req req' allowlisted balances r, SameSigners req req' →
    validateSend v ⟨req, pol, allowlisted, balances, some frost⟩ = .ok r → r.source = .solana →
      ∃ r', validateSend v ⟨req', pol, allowlisted, balances, some frost⟩ = .ok r'
        ∧ r'.source = .solana ∧ r'.signers.Perm r.signers ∧ r'.weight = r.weight
        ∧ (CanSign frost r'.signers ↔ CanSign frost r.signers)
  sign : FairSign S pol frost

/-- Every owner on the chain has an entry in `owners.json` under its label. -/
def OwnEntries (pol : TreasuryPolicy) (frost : Owners) : Prop :=
  ∀ o ∈ pol.owners, o.id ∈ frost.shares.map Prod.fst

instance decidableOwnEntries (pol : TreasuryPolicy) (frost : Owners) :
    Decidable (OwnEntries pol frost) := inferInstanceAs (Decidable (∀ o ∈ pol.owners, _))

/-! ### Specifications of the server -/

section

variable {v : Viem} {i : ValidateInput} {r : SendPlan} {pol : TreasuryPolicy} {frost : Owners}

theorem frostDrift_eq_none :
    frostDrift pol (some frost) = none
      ↔ Number.ofNat frost.threshold = pol.thresholdWeight
        ∧ (∀ o ∈ pol.owners, Number.ofNat (sharesLength frost o.id) = o.weight)
        ∧ ∀ id ∈ frost.shares.map Prod.fst, isOwner pol id = true := by
  rw [frostDrift]
  split_ifs with ht
  · exact iff_of_false nofun (fun h => ht h.1)
  · have ht : Number.ofNat frost.threshold = pol.thresholdWeight := not_not.mp ht
    cases hf : pol.owners.find? (fun o => Number.ofNat (sharesLength frost o.id) ≠ o.weight) with
    | some o =>
      have ho := List.find?_some hf
      refine iff_of_false nofun (fun h => of_decide_eq_true ho ?_)
      exact h.2.1 o (List.mem_of_find?_eq_some hf)
    | none =>
      have hall : ∀ o ∈ pol.owners, Number.ofNat (sharesLength frost o.id) = o.weight := by
        intro o ho
        simpa using List.find?_eq_none.mp hf o ho
      cases hx : (frost.shares.map Prod.fst).filter (fun id => !isOwner pol id) with
      | nil =>
        have hx := List.filter_eq_nil_iff.mp hx
        exact iff_of_true rfl ⟨ht, hall, fun id hid => by simpa using hx id hid⟩
      | cons id rest =>
        refine iff_of_false nofun (fun h => ?_)
        have hid := List.mem_filter.mp (hx ▸ List.mem_cons_self : id ∈ List.filter _ _)
        simp [h.2.2 id hid.1] at hid

theorem checkDrift_eq_ok {source : PositionId} {u : Unit} :
    checkDrift i source = .ok u ↔ (source = .solana → frostDrift i.pol i.frostOwners = none) := by
  unfold checkDrift
  cases source with
  | evm => exact iff_of_true rfl nofun
  | solana =>
    cases frostDrift i.pol i.frostOwners with
    | none => exact iff_of_true rfl (fun _ => rfl)
    | some d => exact iff_of_false nofun (fun h => nomatch (h rfl))

/-- The checks of `validateSend` that do not read the signers. -/
structure PlainChecks (v : Viem) (i : ValidateInput) (r : SendPlan) : Prop where
  asset : i.req.asset = "USDC"
  amount : isAmount (i.req.amount.getD "") = true
  value : r.value = v.parseUnits (i.req.amount.getD "") 6
  positive : 0 < r.value
  recipient : v.isAddress (i.req.recipient.getD "") = true
  number : r.amount = amountNumber (i.req.amount.getD "")
  sandbox : ¬(Number.ofNat sandboxCapUsdc).lt r.amount = true
  cap : ¬i.pol.perIntentCap.lt r.amount = true
  source : chooseSource i (i.req.amount.getD "") r.amount = .ok r.source
  drift : r.source = .solana → frostDrift i.pol i.frostOwners = none

/-- The checks that read them. -/
structure SignerChecks (i : ValidateInput) (r : SendPlan) : Prop where
  signers : r.signers = (i.req.signers.getD []).eraseDups
  nonempty : r.signers ≠ []
  known : ∀ id ∈ r.signers, isOwner i.pol id = true
  weight : r.weight = weightOfLabels i.pol r.signers
  refusal : ¬(i.req.expectRefusal = true ∧ i.allowlisted = true
    ∧ i.pol.thresholdWeight.le r.weight = true)

theorem validateSend_eq_ok : validateSend v i = .ok r ↔ PlainChecks v i r ∧ SignerChecks i r := by
  simp only [validateSend, bind_eq_ok, require_eq_ok, exists_const, checkDrift_eq_ok, pure_eq_ok,
    List.filter_eq_nil_iff, Bool.not_eq_true', Bool.not_eq_false]
  constructor
  · rintro ⟨hasset, hamount, hpos, hrec, hne, hknown, hsand, hcap, href, source, hsource, hdrift,
      rfl⟩
    exact ⟨⟨hasset, hamount, rfl, hpos, hrec, rfl, hsand, hcap, hsource, hdrift⟩,
      ⟨rfl, hne, hknown, rfl, href⟩⟩
  · rintro ⟨hp, hs⟩
    obtain ⟨source, value, signers, weight, amount⟩ := r
    obtain ⟨hasset, hamount, rfl, hpos, hrec, rfl, hsand, hcap, hsource, hdrift⟩ := hp
    obtain ⟨rfl, hne, hknown, hweight, href⟩ := hs
    obtain rfl : weight = weightOfLabels i.pol (i.req.signers.getD []).eraseDups := hweight
    exact ⟨hasset, hamount, hpos, hrec, hne, hknown, hsand, hcap, href, source, hsource, hdrift,
      rfl⟩

/-- Other signers do not matter to the other checks. -/
theorem PlainChecks.resign {req : SendRequest} {allowlisted : Bool}
    {balances : PositionId → Number} {frostOwners : Option Owners}
    (h : PlainChecks v ⟨req, pol, allowlisted, balances, frostOwners⟩ r)
    (signers : Option (List String)) (expectRefusal : Bool) (ids : List String) (weight : Number) :
    PlainChecks v
      ⟨{ req with signers, expectRefusal }, pol, allowlisted, balances, frostOwners⟩
      { r with signers := ids, weight } :=
  ⟨h.asset, h.amount, h.value, h.positive, h.recipient, h.number, h.sandbox, h.cap, h.source,
    h.drift⟩

theorem isOwner_iff {id : String} :
    isOwner pol id = true ↔ ∃ o ∈ pol.owners, ownerOf pol id = some o ∧ o.id = id := by
  constructor
  · intro h
    rw [isOwner, List.any_eq_true] at h
    obtain ⟨o, ho⟩ := Option.isSome_iff_exists.mp (List.find?_isSome.mpr h)
    exact ⟨o, List.mem_of_find?_eq_some ho, ho, by simpa using List.find?_some ho⟩
  · rintro ⟨o, ho, -, rfl⟩
    exact List.any_eq_true.mpr ⟨o, ho, beq_self_eq_true o.id⟩

end

/-! ### The policy as read -/

section

variable {S : Signers} {pol : TreasuryPolicy} {frost : Owners}

/-- The policy says what is on the chain. -/
structure ReadsChain (S : Signers) (pol : TreasuryPolicy) : Prop where
  threshold : pol.thresholdWeight = Number.ofNat S.thresholdWeight.toNat
  weight : ∀ o ∈ pol.owners, o.weight = Number.ofNat (S.weights o.address).toNat
  owner : ∀ o ∈ pol.owners, o.address ∈ S.owners
  pos : ∀ o ∈ pol.owners, 1 ≤ (S.weights o.address).toNat
  nodup : (pol.owners.map Owner.address).Nodup
  length_le : S.owners.length ≤ 20

theorem numberOf_eq {n : ℕ} (h : n < 2 ^ 53) : numberOf n = Number.ofNat n :=
  Number.round_natCast h.le

theorem readPolicy_readsChain {W : Type} {v : Viem} {localeCompare : String → String → ℤ}
    {known : List (String × String)} {s : State W} {treasury : Address}
    (hs : s.toSigners.Valid treasury) :
    ReadsChain s.toSigners (readPolicy v localeCompare known s) := by
  have hperm : (readPolicy v localeCompare known s).owners.Perm
      (s.owners.map (readOwner v known s.toSigners)) := List.perm_insertionSort _ _
  have hmem : ∀ o ∈ (readPolicy v localeCompare known s).owners,
      ∃ a ∈ s.owners, readOwner v known s.toSigners a = o :=
    fun o ho => List.mem_map.mp (hperm.mem_iff.mp ho)
  refine ⟨numberOf_eq ?_, ?_, ?_, ?_, ?_, hs.length_le⟩
  · have hle := s.toSigners.weightOf_le s.owners
    have := hs.threshold_le
    have := hs.length_le
    omega
  · intro o ho
    obtain ⟨a, -, rfl⟩ := hmem o ho
    have := (s.weights a).isLt
    exact numberOf_eq (by omega)
  · intro o ho
    obtain ⟨a, ha, rfl⟩ := hmem o ho
    exact ha
  · intro o ho
    obtain ⟨a, ha, rfl⟩ := hmem o ho
    exact (hs.weight_pos_iff a).mpr ha
  · rw [(hperm.map _).nodup_iff, List.map_map]
    have hid : Owner.address ∘ readOwner v known s.toSigners = id := rfl
    rw [hid, List.map_id]
    exact hs.nodup

/-- The weight on the chain that a label stands for. -/
def chainWeight (S : Signers) (pol : TreasuryPolicy) (id : String) : ℕ :=
  ((ownerOf pol id).map (fun o => (S.weights o.address).toNat)).getD 0

theorem weightOf_addressesOf (ids : List String) :
    S.weightOf (addressesOf pol ids) = (ids.map (chainWeight S pol)).sum := by
  induction ids with
  | nil => rfl
  | cons id ids ih =>
    unfold addressesOf at ih
    rw [List.map_cons, List.sum_cons, ← ih, addressesOf, List.filterMap_cons, chainWeight]
    cases ownerOf pol id with
    | none => simp
    | some o => simp [Signers.weightOf]

theorem length_addressesOf {ids : List String} (hknown : ∀ id ∈ ids, isOwner pol id = true) :
    (addressesOf pol ids).length = ids.length := by
  induction ids with
  | nil => rfl
  | cons id ids ih =>
    obtain ⟨o, -, ho, -⟩ := isOwner_iff.mp (hknown id List.mem_cons_self)
    have ih := ih (fun id' h => hknown id' (List.mem_cons_of_mem _ h))
    unfold addressesOf at ih ⊢
    rw [List.filterMap_cons, ho]
    simp [ih]

theorem mem_of_ownerOf {id : String} {o : Owner} (h : ownerOf pol id = some o) :
    o ∈ pol.owners ∧ o.id = id :=
  ⟨List.mem_of_find?_eq_some h, by simpa using List.find?_some h⟩

namespace ReadsChain

theorem nodup_addressesOf (h : ReadsChain S pol) {ids : List String} (hids : ids.Nodup) :
    (addressesOf pol ids).Nodup := by
  refine hids.filterMap ?_
  intro id id' a ha ha'
  obtain ⟨o, ho, rfl⟩ := Option.map_eq_some_iff.mp ha
  obtain ⟨o', ho', he⟩ := Option.map_eq_some_iff.mp ha'
  obtain ⟨hmem, rfl⟩ := mem_of_ownerOf ho
  obtain ⟨hmem', rfl⟩ := mem_of_ownerOf ho'
  rw [List.inj_on_of_nodup_map h.nodup hmem' hmem he]

theorem addressesOf_subset (h : ReadsChain S pol) (ids : List String) :
    addressesOf pol ids ⊆ S.owners := by
  intro a ha
  obtain ⟨id, -, hid⟩ := List.mem_filterMap.mp ha
  obtain ⟨o, ho, rfl⟩ := Option.map_eq_some_iff.mp hid
  exact h.owner o (mem_of_ownerOf ho).1

theorem weightOf_lt (h : ReadsChain S pol) {ids : List String} (hids : ids.Nodup) :
    S.weightOf (addressesOf pol ids) < 2 ^ 53 := by
  have hlen : (addressesOf pol ids).length ≤ S.owners.length :=
    (List.subperm_of_subset (h.nodup_addressesOf hids) (h.addressesOf_subset ids)).length_le
  have hle := S.weightOf_le (addressesOf pol ids)
  have := h.length_le
  omega

theorem weightOfLabel_eq (h : ReadsChain S pol) (id : String) :
    weightOfLabel pol id = Number.ofNat (chainWeight S pol id) := by
  rw [weightOfLabel, chainWeight]
  cases ho : ownerOf pol id with
  | none => rfl
  | some o => exact h.weight o (mem_of_ownerOf ho).1

/-- **The server adds the weights on the chain.** -/
theorem weightOfLabels_eq (h : ReadsChain S pol) {ids : List String} (hids : ids.Nodup) :
    weightOfLabels pol ids = Number.ofNat (S.weightOf (addressesOf pol ids)) := by
  have hlt := h.weightOf_lt hids
  rw [weightOf_addressesOf, ← Nat.zero_add (List.sum _)] at hlt ⊢
  exact Number.plus_sum (fun id _ => h.weightOfLabel_eq id) hlt.le

theorem quorum_iff (h : ReadsChain S pol) {ids : List String} (hids : ids.Nodup) :
    pol.thresholdWeight.le (weightOfLabels pol ids) = true
      ↔ S.thresholdWeight.toNat ≤ S.weightOf (addressesOf pol ids) := by
  rw [h.threshold, h.weightOfLabels_eq hids, Number.le_ofNat]

end ReadsChain

end

/-! ### Shares and weights -/

section

variable {S : Signers} {pol : TreasuryPolicy} {frost : Owners} {v : Viem}

/-- The share map of a DKG in which `frostDrift` finds nothing against the policy
on the chain. -/
structure Agrees (S : Signers) (pol : TreasuryPolicy) (frost : Owners) : Prop
    extends ReadsChain S pol where
  dkg : ∃ ownersSpec threshold, assignShares ownersSpec threshold = .ok frost
  drift : frostDrift pol (some frost) = none

theorem sharesLength_of_own {id : String} (h : id ∈ frost.shares.map Prod.fst) :
    sharesLength frost id = shareCount frost id := by
  obtain ⟨shares, hs⟩ := lookup_isSome_iff.mpr h
  rw [sharesLength, shareCount, hs]
  rfl

theorem sharesLength_of_not_own {id : String} (h : id ∉ frost.shares.map Prod.fst) :
    sharesLength frost id = inheritedLength id := by
  rw [sharesLength]
  cases hs : frost.shares.lookup id with
  | none => rfl
  | some shares => exact absurd (lookup_isSome_iff.mp ⟨shares, hs⟩) h

/-- No name that an object inherits a number under has a comma. -/
theorem no_comma_of_inheritedLength {name : String} (h : 1 ≤ inheritedLength name) :
    ',' ∉ name.toList := by
  rw [inheritedLength] at h
  split_ifs at h with h2 h1
  · rcases List.mem_cons.mp h2 with rfl | h2
    · decide
    · rw [List.mem_singleton.mp h2]
      decide
  · have hall : ∀ n ∈ ["constructor", "hasOwnProperty", "isPrototypeOf", "propertyIsEnumerable",
        "__lookupGetter__", "__lookupSetter__"], ',' ∉ String.toList n := by decide
    exact hall name h1
  · omega

namespace Agrees

theorem threshold_eq (h : Agrees S pol frost) : frost.threshold = S.thresholdWeight.toNat := by
  have ht := (frostDrift_eq_none.mp h.drift).1
  rw [h.threshold] at ht
  exact_mod_cast Number.ofInt_injective ht

theorem sharesLength_eq (h : Agrees S pol frost) {o : Owner} (ho : o ∈ pol.owners) :
    sharesLength frost o.id = (S.weights o.address).toNat := by
  have hw := (frostDrift_eq_none.mp h.drift).2.1 o ho
  rw [h.weight o ho] at hw
  exact_mod_cast Number.ofInt_injective hw

theorem isOwner_of_own (h : Agrees S pol frost) {id : String}
    (hid : id ∈ frost.shares.map Prod.fst) : isOwner pol id = true :=
  (frostDrift_eq_none.mp h.drift).2.2 id hid

theorem shareCount_eq (h : Agrees S pol frost) {id : String}
    (hid : id ∈ frost.shares.map Prod.fst) : shareCount frost id = chainWeight S pol id := by
  obtain ⟨o, ho, hof, rfl⟩ := isOwner_iff.mp (h.isOwner_of_own hid)
  rw [← sharesLength_of_own hid, h.sharesLength_eq ho, chainWeight, hof]
  rfl

theorem nodup_labels (h : Agrees S pol frost) : (frost.shares.map Prod.fst).Nodup := by
  obtain ⟨ownersSpec, threshold, hdkg⟩ := h.dkg
  exact assignShares_nodup hdkg

theorem shareCount_of_mem (h : Agrees S pol frost) {e : String × List ℕ} (he : e ∈ frost.shares) :
    shareCount frost e.1 = e.2.length := by
  rw [shareCount, lookup_of_mem h.nodup_labels he]
  rfl

/-- **Nobody is left without a share, so no range of the DKG has wrapped.** -/
theorem separated (h : Agrees S pol frost) :
    ∃ next, Separated frost.shares next ∧ frost.threshold ≤ (next + 65535) % 65536 := by
  obtain ⟨ownersSpec, threshold, hdkg⟩ := h.dkg
  refine assignShares_separated hdkg ?_
  intro e he hnil
  have hid : e.1 ∈ frost.shares.map Prod.fst := List.mem_map_of_mem he
  obtain ⟨o, ho, -, hoe⟩ := isOwner_iff.mp (h.isOwner_of_own hid)
  have hpos := h.pos o ho
  rw [← h.sharesLength_eq ho, hoe, sharesLength_of_own hid, h.shareCount_of_mem he, hnil] at hpos
  exact absurd hpos (by decide)

/-- The share holders together reach the threshold. -/
theorem threshold_le (h : Agrees S pol frost) :
    frost.threshold ≤ ((frost.shares.map Prod.fst).map (shareCount frost)).sum := by
  obtain ⟨next, hs, hle⟩ := h.separated
  have htotal := hs.total
  have hsum : (frost.shares.map Prod.fst).map (shareCount frost)
      = frost.shares.map (fun e => e.2.length) := by
    rw [List.map_map]
    exact List.map_congr_left (fun e he => h.shareCount_of_mem he)
  rw [hsum]
  omega

theorem sum_shareCount (h : Agrees S pol frost) {ids : List String}
    (hids : ids ⊆ frost.shares.map Prod.fst) :
    (ids.map (shareCount frost)).sum = S.weightOf (addressesOf pol ids) := by
  rw [weightOf_addressesOf, List.map_congr_left (fun id hid => h.shareCount_eq (hids hid))]

theorem no_comma (h : Agrees S pol frost) {id : String} (hid : isOwner pol id = true) :
    ',' ∉ id.toList := by
  obtain ⟨next, hs, -⟩ := h.separated
  obtain ⟨o, ho, -, rfl⟩ := isOwner_iff.mp hid
  by_cases hown : o.id ∈ frost.shares.map Prod.fst
  · obtain ⟨e, he, heq⟩ := List.mem_map.mp hown
    rw [← heq]
    exact hs.no_comma e he
  · refine no_comma_of_inheritedLength ?_
    rw [← sharesLength_of_not_own hown, h.sharesLength_eq ho]
    exact h.pos o ho

/-- **What `sign` makes of a list of owners.** -/
theorem canSign_iff (h : Agrees S pol frost) {ids : List String} (hne : ids ≠ [])
    (hids : ids.Nodup) (hknown : ∀ id ∈ ids, isOwner pol id = true) :
    CanSign frost ids ↔ ids ⊆ frost.shares.map Prod.fst
      ∧ S.thresholdWeight.toNat ≤ S.weightOf (addressesOf pol ids) := by
  obtain ⟨next, hs, -⟩ := h.separated
  have hsplit := splitChar_joinComma hne (fun id hid => h.no_comma (hknown id hid))
  rw [CanSign]
  simp only [hs.signCheck_eq_ok, hsplit, h.threshold_eq]
  constructor
  · rintro ⟨shares, -, hsub, hle, -⟩
    rw [h.sum_shareCount hsub] at hle
    exact ⟨hsub, hle⟩
  · rintro ⟨hsub, hle⟩
    rw [← h.sum_shareCount hsub] at hle
    exact ⟨_, hids, hsub, hle, rfl⟩

theorem fairSign (h : Agrees S pol frost) : FairSign S pol frost := by
  obtain ⟨next, hs, -⟩ := h.separated
  refine ⟨fun signers ids hok => hs.signCheck_nodup hok, ?_, ?_,
    fun signers signers' ids hperm hok => hs.signCheck_perm hperm hok⟩
  · intro signers ids hok
    obtain ⟨hnodup, hsub, -, -⟩ := hs.signCheck_eq_ok.mp hok
    exact ⟨hnodup, fun label hlabel => h.isOwner_of_own (hsub hlabel)⟩
  · intro signers ids hok
    obtain ⟨-, hsub, hle, -⟩ := hs.signCheck_eq_ok.mp hok
    rwa [h.sum_shareCount hsub, h.threshold_eq] at hle

theorem sameQuorum (h : Agrees S pol frost) (hown : OwnEntries pol frost) {i : ValidateInput}
    {r : SendPlan} (hpol : i.pol = pol) (hr : SignerChecks i r) : SameQuorum S pol frost r := by
  have hids : r.signers.Nodup := hr.signers ▸ nodup_eraseDups _
  have hknown : ∀ id ∈ r.signers, isOwner pol id = true := hpol ▸ hr.known
  have hsub : r.signers ⊆ frost.shares.map Prod.fst := by
    intro id hid
    obtain ⟨o, ho, -, rfl⟩ := isOwner_iff.mp (hknown id hid)
    exact hown o ho
  have hquorum := h.quorum_iff hids
  rw [← hpol, ← hr.weight, hpol] at hquorum
  refine ⟨?_, hquorum, h.nodup_addressesOf hids, h.addressesOf_subset _, length_addressesOf hknown⟩
  rw [hquorum, h.canSign_iff hr.nonempty hids hknown]
  exact and_iff_right hsub

/-- **With an entry for every owner, the three counts agree.** -/
theorem frostRealises (h : Agrees S pol frost) (hown : OwnEntries pol frost) :
    FrostRealises v S pol frost := by
  refine ⟨?_, ?_, h.fairSign⟩
  · intro req allowlisted balances r hok _
    exact h.sameQuorum hown rfl (validateSend_eq_ok.mp hok).2
  · intro req req' allowlisted balances r hsame hok hsol
    obtain ⟨hp, hs⟩ := validateSend_eq_ok.mp hok
    have hreq : req' = { req with signers := req'.signers, expectRefusal := req.expectRefusal } := by
      obtain ⟨hrest, -⟩ := hsame
      cases req
      cases req'
      simp only [SendRequest.mk.injEq] at hrest ⊢
      simp [hrest]
    have hids : r.signers.Nodup := hs.signers ▸ nodup_eraseDups _
    have hperm : (req'.signers.getD []).eraseDups.Perm r.signers := by
      rw [List.perm_ext_iff_of_nodup (nodup_eraseDups _) hids]
      intro id
      rw [hs.signers, List.mem_eraseDups, List.mem_eraseDups]
      exact (hsame.signers id).symm
    have hweight : weightOfLabels pol (req'.signers.getD []).eraseDups = r.weight := by
      rw [hs.weight, h.weightOfLabels_eq (nodup_eraseDups _), h.weightOfLabels_eq hids,
        weightOf_addressesOf, weightOf_addressesOf, (hperm.map _).sum_nat]
    have hs' : SignerChecks ⟨req', pol, allowlisted, balances, some frost⟩
        { r with signers := (req'.signers.getD []).eraseDups, weight := r.weight } := by
      refine ⟨rfl, ?_, ?_, hweight.symm, ?_⟩
      · intro hnil
        have hnil : (req'.signers.getD []).eraseDups = [] := hnil
        rw [hnil] at hperm
        exact hs.nonempty hperm.nil_eq.symm
      · exact fun id hid => hs.known id (hperm.mem_iff.mp hid)
      · have hrefusal := hs.refusal
        rw [hreq]
        exact hrefusal
    have hp' := hp.resign req'.signers req.expectRefusal (req'.signers.getD []).eraseDups r.weight
    rw [← hreq] at hp'
    have hq := h.sameQuorum hown rfl hs
    have hq' := h.sameQuorum hown rfl hs'
    exact ⟨_, validateSend_eq_ok.mpr ⟨hp', hs'⟩, hsol, hperm, rfl,
      hq'.sign_iff.trans hq.sign_iff.symm⟩

/-- The request of all share holders and one more owner reaches the threshold. -/
theorem threshold_le_with (h : Agrees S pol frost) (o : Owner) :
    S.thresholdWeight.toNat
      ≤ S.weightOf (addressesOf pol (frost.shares.map Prod.fst ++ [o.id])) := by
  have hle := h.threshold_le
  rw [h.sum_shareCount (List.Subset.refl _), h.threshold_eq, weightOf_addressesOf] at hle
  rw [weightOf_addressesOf, List.map_append, List.sum_append]
  omega

/-- **Without an entry for some owner, they do not.** -/
theorem ownEntries (h : Agrees S pol frost) (hp : FrostRealises v S pol frost)
    {req : SendRequest} {allowlisted : Bool} {balances : PositionId → Number} {r : SendPlan}
    (hok : validateSend v ⟨req, pol, allowlisted, balances, some frost⟩ = .ok r)
    (hsol : r.source = .solana) : OwnEntries pol frost := by
  intro o ho
  by_contra hout
  obtain ⟨hplain, -⟩ := validateSend_eq_ok.mp hok
  let ids := frost.shares.map Prod.fst ++ [o.id]
  have hids : ids.Nodup := by
    refine List.nodup_append.mpr ⟨h.nodup_labels, List.nodup_singleton _, ?_⟩
    rintro a ha b hb rfl
    exact hout (List.mem_singleton.mp hb ▸ ha)
  have hknown : ∀ id ∈ ids, isOwner pol id = true := by
    intro id hid
    rcases List.mem_append.mp hid with hid | hid
    · exact h.isOwner_of_own hid
    · rw [List.mem_singleton.mp hid]
      exact List.any_eq_true.mpr ⟨o, ho, beq_self_eq_true o.id⟩
  have hne : ids ≠ [] := List.append_ne_nil_of_right_ne_nil _ (List.cons_ne_nil _ _)
  have hplain' := hplain.resign (some ids) false ids (weightOfLabels pol ids)
  have hs : SignerChecks
      ⟨{ req with signers := some ids, expectRefusal := false }, pol, allowlisted, balances,
        some frost⟩ { r with signers := ids, weight := weightOfLabels pol ids } :=
    ⟨(eraseDups_of_nodup hids).symm, hne, hknown, rfl, fun hc => nomatch hc.1⟩
  have hq := hp.same _ _ _ _ (validateSend_eq_ok.mpr ⟨hplain', hs⟩) hsol
  have hsign := hq.sign_iff.mpr (hq.quorum_iff.mpr (h.threshold_le_with o))
  have hsub := ((h.canSign_iff hne hids hknown).mp hsign).1
  exact hout (hsub (List.mem_append_right _ (List.mem_singleton_self _)))

end Agrees

end

/-! ### Every treasury -/

/-- **FROST signing realises the quorum of the treasury exactly when every owner
on the chain has an entry of its own in `owners.json`.**  For every state that a
treasury can reach, every share map that the DKG makes and every reading of labels
between which `frostDrift` finds nothing; the converse needs a request that is
accepted at all. -/
theorem frostRealises_iff_ownEntries {W : Type} [DecidableEq W] {K : Keccak W} {d : Deployment}
    {treasury : Address} {chainid : Uint256} {p : SignerParams} {params : PolicyParams}
    {s₀ s : State W} {history : List (Call (State W) (Tx W d))}
    (hd : deploy K treasury chainid p params = .ok (d, s₀)) (hr : Run (step K d) s₀ history s)
    {ownersSpec : String} {threshold : ℕ} {frost : Owners}
    (hdkg : assignShares ownersSpec threshold = .ok frost)
    {v : Viem} {localeCompare : String → String → ℤ} {known : List (String × String)}
    (hdrift : frostDrift (readPolicy v localeCompare known s) (some frost) = none) :
    (OwnEntries (readPolicy v localeCompare known s) frost →
        FrostRealises v s.toSigners (readPolicy v localeCompare known s) frost)
      ∧ ((∃ req allowlisted balances r,
          validateSend v
            ⟨req, readPolicy v localeCompare known s, allowlisted, balances, some frost⟩ = .ok r
          ∧ r.source = .solana) →
        FrostRealises v s.toSigners (readPolicy v localeCompare known s) frost →
        OwnEntries (readPolicy v localeCompare known s) frost) := by
  have hagrees : Agrees s.toSigners (readPolicy v localeCompare known s) frost :=
    ⟨readPolicy_readsChain (controlled_of_run hd hr).signers, ⟨ownersSpec, threshold, hdkg⟩, hdrift⟩
  refine ⟨hagrees.frostRealises, ?_⟩
  rintro ⟨req, allowlisted, balances, r, hok, hsol⟩ hp
  exact hagrees.ownEntries hp hok hsol

/-! ### A treasury of three owners -/

def aliceAddress : Address := 0x1111111111111111111111111111111111111111

def bobAddress : Address := 0x2222222222222222222222222222222222222222

def carolAddress : Address := 0x3333333333333333333333333333333333333333

def trioParams : SignerParams := ⟨[aliceAddress, bobAddress, carolAddress], [2, 1, 1], 3, 3⟩

def trioPolicy : PolicyParams := { solePolicy with perIntentCap := 2000000 }

def trioSigners : Signers where
  owners := [aliceAddress, bobAddress, carolAddress]
  weights := Function.update (Function.update (Function.update (fun _ => 0) aliceAddress 2)
    bobAddress 1) carolAddress 1
  thresholdWeight := 3

def trioState {W : Type} (K : Keccak W) : State W :=
  { soleState K with toSigners := trioSigners, perIntentCap := 2000000 }

theorem trioDeploy {W : Type} (K : Keccak W) :
    deploy K 2 1 trioParams trioPolicy = .ok (soleDeployment, trioState K) := rfl

/-- Addresses without letters have no checksum in their text. -/
def digitsViem : Viem where
  isAddress s := decide (s.length = 42) && s.startsWith "0x"
  parseUnits s decimals :=
    let places := (amountParts s).2.getD []
    digitsValue ((amountParts s).1 ++ places) * 10 ^ (decimals - places.length)
  addressText a := "0x" ++ String.ofList (Nat.toDigits 16 a.toNat)

def codePointCompare (a b : String) : ℤ := if a = b then 0 else if a < b then -1 else 1

def trioKnown (carol : String) : List (String × String) :=
  [("A", "0x1111111111111111111111111111111111111111"),
    ("B", "0x2222222222222222222222222222222222222222"),
    (carol, "0x3333333333333333333333333333333333333333")]

def trioPol (carol : String) : TreasuryPolicy :=
  readPolicy digitsViem codePointCompare (trioKnown carol) (trioState Keccak.symbolic)

def trioRequest (carol : String) : SendRequest where
  asset := "USDC"
  amount := some "0.5"
  recipient := some "0x4444444444444444444444444444444444444444"
  signers := some ["A", "B", carol]
  source := some "solana"
  expectRefusal := false

/-- The policy that the server reads. -/
def trioRead (carol : String) : TreasuryPolicy where
  thresholdWeight := .ofNat 3
  owners := [⟨"A", aliceAddress, .ofNat 2⟩, ⟨"B", bobAddress, .ofNat 1⟩,
    ⟨carol, carolAddress, .ofNat 1⟩]
  perIntentCap := .ofNat 2

/-- The policy is read back as it was deployed. -/
theorem trioPol_eq :
    trioPol "C" = trioRead "C" ∧ trioPol "constructor" = trioRead "constructor" := by
  decide +kernel

def trioOwners : Owners := ⟨3, [("A", [1, 2]), ("B", [3]), ("C", [4])]⟩

/-- The shares follow the weights. -/
theorem trioOwners_kept :
    assignShares "A:2,B:1,C:1" 3 = .ok trioOwners
      ∧ frostDrift (trioPol "C") (some trioOwners) = none
      ∧ OwnEntries (trioPol "C") trioOwners := by
  rw [trioPol_eq.1]
  decide +kernel

theorem frostRealises_iff_ownEntries_trio :
    OwnEntries (trioPol "C") trioOwners
      ∧ FrostRealises digitsViem trioSigners (trioPol "C") trioOwners := by
  obtain ⟨hassigned, hdrift, hentries⟩ := trioOwners_kept
  exact ⟨hentries, (frostRealises_iff_ownEntries (trioDeploy Keccak.symbolic) .nil hassigned
    hdrift).1 hentries⟩

/-- Carol is labelled `constructor` and has no share. -/
def duoOwners : Owners := ⟨3, [("A", [1, 2]), ("B", [3])]⟩

/-- The three owners together have weight `4` of `3`. -/
def trioPlan : SendPlan := ⟨.solana, 500000, ["A", "B", "constructor"], .ofNat 4, .finite (1 / 2)⟩

/-- No drift is seen, the send is accepted, and it cannot be signed. -/
theorem duoOwners_stuck :
    assignShares "A:2,B:1" 3 = .ok duoOwners
      ∧ frostDrift (trioPol "constructor") (some duoOwners) = none
      ∧ validateSend digitsViem ⟨trioRequest "constructor", trioPol "constructor", true,
          fun _ => .ofNat 10, some duoOwners⟩ = .ok trioPlan
      ∧ (trioPol "constructor").thresholdWeight.le trioPlan.weight = true
      ∧ signCheck duoOwners (joinComma trioPlan.signers)
          = .error (.unknownOwner "constructor") := by
  rw [trioPol_eq.2]
  decide +kernel

/-- **The drift check lets an owner without a share pass.** -/
theorem frostRealises_not_constructor :
    deploy Keccak.symbolic 2 1 trioParams trioPolicy
        = .ok (soleDeployment, trioState Keccak.symbolic)
      ∧ assignShares "A:2,B:1" 3 = .ok duoOwners
      ∧ frostDrift (trioPol "constructor") (some duoOwners) = none
      ∧ ¬FrostRealises digitsViem trioSigners (trioPol "constructor") duoOwners := by
  obtain ⟨hassigned, hdrift, haccepted, hweight, hunsignable⟩ := duoOwners_stuck
  refine ⟨trioDeploy _, hassigned, hdrift, ?_⟩
  intro h
  have hq := h.same _ _ _ _ haccepted rfl
  obtain ⟨shares, hok⟩ := hq.sign_iff.mpr hweight
  rw [hunsignable] at hok
  cases hok

end Bufi.Send
