import Bufi.Evm.Run
import Bufi.Weighted.Parity

/-!
# Budgets on Squads

A budget is one cap for the treasury, but `compileSquads` writes it into every
policy of the asset, and each policy counts for itself.  `useStep` is one use of a
policy within a period; what a run has spent of a mint is the sum of the counters
of its policies (`spent_eq_sum`).

So the cap holds when the mint has one policy, and as soon as there are two they
can be used one after the other.  A mint has as many policies as coalitions times
asset entries, which makes `spendingBudget_iff` exact: the rule must be an all-of
rule, and the mint must be listed once.
-/

namespace Bufi.Weighted

open Bufi.Evm Bufi.Js Bufi.Threshold Finset

/-! ### Using a policy -/

/-- A use of one of the policies of a plan, approved by the holders of some keys. -/
structure Use (plan : SquadsTreasuryPlan) where
  policy : Fin plan.policies.length
  approvers : String → Bool
  amount : ℕ

/-- Whether the policy admits the use, when its counter is at `used`. -/
def SquadsSpendingLimitPolicy.admits (p : SquadsSpendingLimitPolicy) (approvers : String → Bool)
    (amount used : ℕ) : Bool :=
  p.signers.all (fun signer => approvers signer.key)
    && (decide (p.payload.quantityConstraints.maxPerUse = 0)
      || decide ((amount : ℤ) ≤ p.payload.quantityConstraints.maxPerUse))
    && decide (((used + amount : ℕ) : ℤ) ≤ p.payload.quantityConstraints.maxPerPeriod)

def SquadsTreasuryPlan.policyAt (plan : SquadsTreasuryPlan) (i : Fin plan.policies.length) :
    SquadsSpendingLimitPolicy :=
  plan.policies[i]

/-- One use within the period; the state are the counters. -/
def useStep (plan : SquadsTreasuryPlan) (counters : Fin plan.policies.length → ℕ)
    (use : Use plan) : Option (Fin plan.policies.length → ℕ) :=
  if (plan.policyAt use.policy).admits use.approvers use.amount (counters use.policy) then
    some (Function.update counters use.policy (counters use.policy + use.amount))
  else none

/-- The uses of a run that went through. -/
abbrev Uses (plan : SquadsTreasuryPlan) : Type :=
  List (Call (Fin plan.policies.length → ℕ) (Use plan))

/-- The amount of a mint spent in a run. -/
def spent (plan : SquadsTreasuryPlan) (mint : String) (h : Uses plan) : ℕ :=
  ((h.filter (fun c => (plan.policyAt c.act.policy).payload.mint = mint)).map
    (fun c => c.act.amount)).sum

/-- **The budget of an asset is kept**: whoever approves whatever uses in a period,
no more of the asset's mint is spent than its budget has. -/
def BudgetKept (plan : SquadsTreasuryPlan) (asset : TreasuryAsset) (budget : Budget) : Prop :=
  ∀ (mint : String) (h : Uses plan) (s : Fin plan.policies.length → ℕ), mintOf asset = .ok mint →
    Run (useStep plan) (fun _ => 0) h s → (spent plan mint h : ℤ) ≤ budget.maxPerPeriod

section

variable {plan : SquadsTreasuryPlan} {s s' : Fin plan.policies.length → ℕ} {h : Uses plan}

/-- The policies of a mint. -/
def policiesWith (plan : SquadsTreasuryPlan) (mint : String) : Finset (Fin plan.policies.length) :=
  positions plan.policies (fun p => p.payload.mint = mint)

theorem mem_policiesWith {mint : String} {i : Fin plan.policies.length} :
    i ∈ policiesWith plan mint ↔ (plan.policyAt i).payload.mint = mint := by
  rw [policiesWith, mem_positions, decide_eq_true_iff]
  rfl

theorem useStep_eq_some {use : Use plan} :
    useStep plan s use = some s'
      ↔ (plan.policyAt use.policy).admits use.approvers use.amount (s use.policy) = true
        ∧ s' = Function.update s use.policy (s use.policy + use.amount) := by
  rw [useStep]
  split_ifs with hadmits
  · rw [Option.some.injEq, eq_comm]
    exact (and_iff_right hadmits).symm
  · simp [hadmits]

/-- **What is spent of a mint is on the counters of its policies.** -/
theorem spent_eq_sum (hr : Run (useStep plan) (fun _ => 0) h s) (mint : String) :
    spent plan mint h = ∑ i ∈ policiesWith plan mint, s i := by
  induction hr with
  | nil => simp [spent]
  | @snoc h s s' use hr hstep ih =>
    obtain ⟨-, rfl⟩ := useStep_eq_some.mp hstep
    have hsplit : spent plan mint (h ++ [⟨s, use, Function.update s use.policy
        (s use.policy + use.amount)⟩])
          = spent plan mint h
            + if (plan.policyAt use.policy).payload.mint = mint then use.amount else 0 := by
      rw [spent, List.filter_append, List.map_append, List.sum_append]
      split_ifs with hm
      · simp [spent, hm]
      · simp [spent, hm]
    rw [hsplit, ih]
    split_ifs with hm
    · have hmem : use.policy ∈ policiesWith plan mint := mem_policiesWith.mpr hm
      rw [sum_update_of_mem hmem, ← sum_erase_add _ _ hmem, sdiff_singleton_eq_erase]
      omega
    · have hmem : use.policy ∉ policiesWith plan mint := fun hc => hm (mem_policiesWith.mp hc)
      rw [sum_update_of_notMem hmem, Nat.add_zero]

/-- No counter goes over the limit of its policy, where there is room at all. -/
theorem counter_le (hr : Run (useStep plan) (fun _ => 0) h s) (i : Fin plan.policies.length)
    (h0 : 0 ≤ (plan.policyAt i).payload.quantityConstraints.maxPerPeriod) :
    (s i : ℤ) ≤ (plan.policyAt i).payload.quantityConstraints.maxPerPeriod := by
  refine hr.invariant (P := fun s => (s i : ℤ) ≤ _) h0 ?_
  intro s use s' hs hstep
  obtain ⟨hadmits, rfl⟩ := useStep_eq_some.mp hstep
  by_cases hi : i = use.policy
  · subst hi
    rw [Function.update_self]
    rw [SquadsSpendingLimitPolicy.admits, Bool.and_eq_true, decide_eq_true_iff] at hadmits
    exact hadmits.2
  · rw [Function.update_of_ne hi]
    exact hs

/-- A policy with room, that admits a use of `1`. -/
structure Usable (p : SquadsSpendingLimitPolicy) : Prop where
  maxPerPeriod : 0 < p.payload.quantityConstraints.maxPerPeriod
  maxPerUse : 0 ≤ p.payload.quantityConstraints.maxPerUse

theorem Usable.admits_one {p : SquadsSpendingLimitPolicy} (hp : Usable p) {used : ℕ}
    (hroom : ((used + 1 : ℕ) : ℤ) ≤ p.payload.quantityConstraints.maxPerPeriod) :
    p.admits (fun _ => true) 1 used = true := by
  have huse := hp.maxPerUse
  rw [SquadsSpendingLimitPolicy.admits, Bool.and_eq_true, Bool.and_eq_true, Bool.or_eq_true,
    decide_eq_true_iff, decide_eq_true_iff, decide_eq_true_iff]
  refine ⟨⟨by simp, ?_⟩, hroom⟩
  omega

/-- The owners together can spend up to the limit of one policy, on top of a run
that has not used it. -/
theorem exists_run_up_to (hr : Run (useStep plan) (fun _ => 0) h s) {i : Fin plan.policies.length}
    (hp : Usable (plan.policyAt i)) (hi : s i = 0) (n : ℕ)
    (hn : (n : ℤ) ≤ (plan.policyAt i).payload.quantityConstraints.maxPerPeriod) :
    ∃ h', Run (useStep plan) (fun _ => 0) h' (Function.update s i n) := by
  induction n with
  | zero =>
    have hsame : Function.update s i 0 = s := by rw [← hi, Function.update_eq_self]
    exact ⟨h, by rwa [hsame]⟩
  | succ n ih =>
    obtain ⟨h', hr'⟩ := ih (by omega)
    have hstep : useStep plan (Function.update s i n) ⟨i, fun _ => true, 1⟩
        = some (Function.update s i (n + 1)) := by
      refine useStep_eq_some.mpr ⟨?_, ?_⟩
      · rw [Function.update_self]
        exact hp.admits_one hn
      · rw [Function.update_self, Function.update_idem]
    exact ⟨_, hr'.snoc hstep⟩

/-- **Two policies of a mint allow more than either.** -/
theorem exists_run_over {mint : String} {i j : Fin plan.policies.length}
    (hi : i ∈ policiesWith plan mint) (hj : j ∈ policiesWith plan mint) (hij : i ≠ j)
    (hpi : Usable (plan.policyAt i)) (hpj : Usable (plan.policyAt j)) :
    ∃ h s, Run (useStep plan) (fun _ => 0) h s
      ∧ (plan.policyAt i).payload.quantityConstraints.maxPerPeriod < (spent plan mint h : ℤ) := by
  obtain ⟨n, hn⟩ := Int.eq_ofNat_of_zero_le hpi.maxPerPeriod.le
  have hr₀ : Run (useStep plan) (fun _ => 0) [] (fun _ => 0) := .nil
  obtain ⟨h₁, hr₁⟩ := exists_run_up_to hr₀ hpi rfl n (le_of_eq hn.symm)
  have hzero : Function.update (fun _ : Fin plan.policies.length => 0) i n j = 0 :=
    Function.update_of_ne hij.symm _ _
  obtain ⟨h₂, hr₂⟩ := exists_run_up_to hr₁ hpj hzero 1 (by have := hpj.maxPerPeriod; omega)
  refine ⟨h₂, _, hr₂, ?_⟩
  rw [spent_eq_sum hr₂, hn]
  have hle : ∑ k ∈ {i, j}, Function.update (Function.update
      (fun _ : Fin plan.policies.length => 0) i n) j 1 k ≤ _ :=
    sum_le_sum_of_subset (insert_subset hi (singleton_subset_iff.mpr hj))
  rw [sum_pair hij, Function.update_of_ne hij, Function.update_self, Function.update_self] at hle
  exact_mod_cast hle

end

/-! ### How many policies a mint has -/

section

variable {spec : WeightedTreasurySpec} {options : CompileSquadsOptions} {plan : SquadsTreasuryPlan}

/-- The entries of the spec that have a mint. -/
def entriesWith (spec : WeightedTreasurySpec) (mint : String) : ℕ :=
  spec.assets.countP (fun asset => (mintOf asset).toOption = some mint)

theorem countP_assetPolicies {coalitions : List (List String)} {asset : TreasuryAsset}
    {ps : List SquadsSpendingLimitPolicy}
    (h : assetPolicies spec options coalitions asset = .ok ps) (mint : String) :
    ps.countP (fun p => p.payload.mint = mint)
      = if (mintOf asset).toOption = some mint then coalitions.length else 0 := by
  obtain ⟨m, hm, -, hps⟩ := assetPolicies_eq_ok.mp h
  have hlen : coalitions.length = ps.length := (mapM_eq_ok.mp hps).length_eq
  have hmint : ∀ p ∈ ps, p.payload.mint = m := by
    intro p hp
    obtain ⟨c, -, hc⟩ := mapM_right hps hp
    have hp := (policyFor_of_eq_ok hm hc).mint
    rw [hm] at hp
    exact (Except.ok.inj hp).symm
  have hopt : (mintOf asset).toOption = some m := toOption_eq_some.mpr hm
  rw [hopt]
  split_ifs with heq
  · rw [hlen, List.countP_eq_length]
    intro p hp
    rw [decide_eq_true_iff, hmint p hp]
    exact Option.some.inj heq
  · rw [List.countP_eq_zero]
    intro p hp
    rw [decide_eq_true_iff, hmint p hp]
    exact fun hc => heq (congrArg some hc)

theorem countP_policies {coalitions : List (List String)} {assets : List TreasuryAsset}
    {policies : List (List SquadsSpendingLimitPolicy)}
    (h : assets.mapM (assetPolicies spec options coalitions) = .ok policies) (mint : String) :
    policies.flatten.countP (fun p => p.payload.mint = mint)
      = assets.countP (fun asset => (mintOf asset).toOption = some mint) * coalitions.length := by
  induction mapM_eq_ok.mp h with
  | nil => simp
  | @cons asset ps assets policies hps hrest ih =>
    rw [List.flatten_cons, List.countP_append, countP_assetPolicies hps,
      ih (mapM_eq_ok.mpr hrest), List.countP_cons, Nat.add_mul]
    by_cases heq : (mintOf asset).toOption = some mint
    · rw [if_pos heq, if_pos (decide_eq_true heq), Nat.one_mul, Nat.add_comm]
    · rw [if_neg heq, if_neg (by simpa using heq), Nat.zero_mul, Nat.zero_add, Nat.add_zero]

/-- **A mint has a policy for each of its entries and each minimal winning set.** -/
theorem card_policiesWith (h : compileSquads spec options = .ok plan) (mint : String) :
    (policiesWith plan mint).card
      = entriesWith spec mint
        * Nat.card {m // Minimal (Wins (memberWeight (membersOf spec))
          spec.thresholdWeight.toNat) m} := by
  obtain ⟨hv, -, coalitions, policies, hco, -, hpol, rfl⟩ := compileSquads_eq_ok.mp h
  rw [hv.threshold] at hco
  obtain ⟨hle, rfl⟩ := minimalWinningCoalitions_eq_ok.mp hco
  have hcount := countP_policies hpol mint
  rw [List.length_map, List.length_insertionSort,
    length_minimalMasks (hv.exact hle) hv.threshold_pos] at hcount
  rw [policiesWith, card_positions]
  exact hcount

/-- The policies of a compiled plan can all be used. -/
theorem usable_of_compileSquads (h : compileSquads spec options = .ok plan)
    (i : Fin plan.policies.length) : Usable (plan.policyAt i) := by
  obtain ⟨hv, -, coalitions, policies, -, -, hpol, rfl⟩ := compileSquads_eq_ok.mp h
  obtain ⟨asset, hasset, c, -, hfor⟩ := exists_policyFor hpol (List.getElem_mem i.isLt)
  have hbudget := hv.budget asset hasset
  refine ⟨?_, ?_⟩
  · refine lt_of_lt_of_eq ?_ hfor.maxPerPeriod.symm
    rw [maxPerPeriodOf]
    cases hb : asset.budget with
    | none => exact show 0 < u64Max by decide
    | some budget => exact (hbudget budget hb).maxPerPeriod
  · refine le_of_le_of_eq ?_ hfor.maxPerUse.symm
    rw [maxPerUseOf]
    cases hb : asset.budget with
    | none => exact le_refl 0
    | some budget =>
      cases hu : budget.maxPerUse with
      | none => simp [hu]
      | some use =>
        have hpos := ((hbudget budget hb).maxPerUse use hu).1.le
        simpa [hu] using hpos

/-- An asset with a budget has a policy with that budget. -/
theorem exists_policyAt (h : compileSquads spec options = .ok plan) {asset : TreasuryAsset}
    (hasset : asset ∈ spec.assets) {budget : Budget} (hb : asset.budget = some budget) :
    ∃ i : Fin plan.policies.length, mintOf asset = .ok (plan.policyAt i).payload.mint
      ∧ (plan.policyAt i).payload.quantityConstraints.maxPerPeriod = budget.maxPerPeriod := by
  obtain ⟨hv, -, coalitions, policies, hco, -, hpol, rfl⟩ := compileSquads_eq_ok.mp h
  -- all owners together win, so there is a coalition
  have hall : spec.thresholdWeight.toNat ≤ weightIn spec (fun _ => true) := by
    have hle := hv.threshold_le
    rw [totalWeight] at hle
    simpa [weightIn] using hle
  rw [hv.threshold] at hco
  have hexact := hv.exact (minimalWinningCoalitions_eq_ok.mp hco).1
  rw [← wins_voters_iff, ← Bufi.Weighted.isWinning_iff hexact,
    isWinning_iff_exists_coalition hexact hv.threshold_pos hco] at hall
  obtain ⟨c, hc, -⟩ := hall
  obtain ⟨p, hp, hfor⟩ := exists_policy hpol hasset hc
  obtain ⟨i, hi, rfl⟩ := List.getElem_of_mem hp
  refine ⟨⟨i, hi⟩, hfor.mint, hfor.maxPerPeriod.trans ?_⟩
  rw [maxPerPeriodOf, hb]
  rfl

/-- **When a budget survives the compilation**: exactly when the weighted rule is
that all of one group sign, and the asset's mint has no second entry. -/
theorem spendingBudget_iff (h : compileSquads spec options = .ok plan) {asset : TreasuryAsset}
    (hasset : asset ∈ spec.assets) {budget : Budget} (hb : asset.budget = some budget) :
    BudgetKept plan asset budget
      ↔ (∃ m, AllOf (memberWeight (membersOf spec)) spec.thresholdWeight.toNat m)
        ∧ ∀ mint, mintOf asset = .ok mint → entriesWith spec mint = 1 := by
  obtain ⟨i, hmint, hmax⟩ := exists_policyAt h hasset hb
  have hi : i ∈ policiesWith plan (plan.policyAt i).payload.mint := mem_policiesWith.mpr rfl
  have hcard := card_policiesWith h (plan.policyAt i).payload.mint
  rw [← card_minimal_eq_one_iff]
  constructor
  · intro hkept
    have hone : (policiesWith plan (plan.policyAt i).payload.mint).card = 1 := by
      rw [card_eq_one]
      refine ⟨i, eq_singleton_iff_unique_mem.mpr ⟨hi, ?_⟩⟩
      intro j hj
      by_contra hji
      obtain ⟨uses, s, hr, hover⟩ := exists_run_over hi hj (fun heq => hji heq.symm)
        (usable_of_compileSquads h i) (usable_of_compileSquads h j)
      have hle := hkept _ uses s hmint hr
      rw [hmax] at hover
      omega
    rw [hcard, mul_eq_one] at hone
    refine ⟨hone.2, ?_⟩
    intro mint hm
    rw [hmint] at hm
    rw [← Except.ok.inj hm]
    exact hone.1
  · rintro ⟨hgroup, hentry⟩ mint uses s hm hr
    rw [hmint] at hm
    obtain rfl := Except.ok.inj hm
    rw [hgroup, hentry _ hmint] at hcard
    obtain ⟨j, hj⟩ := card_eq_one.mp hcard
    have hij : i = j := by
      rw [hj, mem_singleton] at hi
      exact hi
    rw [spent_eq_sum hr, hj, sum_singleton, ← hij, ← hmax]
    exact counter_le hr i (usable_of_compileSquads h i).maxPerPeriod.le

end

/-! ### Two examples -/

/-- A hundred a day. -/
def demoBudget : Budget := ⟨100, .daily, none⟩

/-- All three owners have to sign, so there is one policy. -/
theorem spendingBudget_iff_unanimous :
    ∃ plan, compileSquads (demoSpec [1, 1, 1] 3 (some demoBudget)) ⟨none, none⟩ = .ok plan
      ∧ BudgetKept plan ⟨"USDC", some demoMint, some (.ofNat 6), some demoBudget⟩ demoBudget := by
  have hok : (compileSquads (demoSpec [1, 1, 1] 3 (some demoBudget))
      ⟨none, none⟩).toOption.isSome := by decide +kernel
  obtain ⟨plan, hplan⟩ := Option.isSome_iff_exists.mp hok
  have hplan := toOption_eq_some.mp hplan
  refine ⟨plan, hplan, (spendingBudget_iff hplan List.mem_cons_self rfl).mpr ⟨⟨univ, ?_⟩, ?_⟩⟩
  · decide +kernel
  · intro mint hm
    have hmint : (mintOf ⟨"USDC", some demoMint, some (.ofNat 6), some demoBudget⟩).toOption
        = some demoMint := by decide +kernel
    rw [hm] at hmint
    obtain rfl := Option.some.inj hmint
    decide +kernel

/-- The first two policies of a plan, one after the other, by all owners. -/
def overspend (plan : SquadsTreasuryPlan) (h : 1 < plan.policies.length) : List (Use plan) :=
  [⟨⟨0, Nat.lt_of_succ_lt h⟩, fun _ => true, 100⟩, ⟨⟨1, h⟩, fun _ => true, 100⟩]

def overspent (plan : SquadsTreasuryPlan) : ℕ :=
  if h : 1 < plan.policies.length then
    spent plan demoMint (attempts (useStep plan) (fun _ => 0) (overspend plan h))
  else 0

/-- **Two of three owners spend the budget twice**: each pair of them has a policy
with a counter of its own. -/
theorem spendingBudget_not_twoOfThree :
    ∃ plan, compileSquads (demoSpec [1, 1, 1] 2 (some demoBudget)) ⟨none, none⟩ = .ok plan
      ∧ overspent plan = 200
      ∧ ¬ BudgetKept plan ⟨"USDC", some demoMint, some (.ofNat 6), some demoBudget⟩ demoBudget := by
  have hrun : (compileSquads (demoSpec [1, 1, 1] 2 (some demoBudget))
      ⟨none, none⟩).toOption.map overspent = some 200 := by decide +kernel
  obtain ⟨plan, hplan, hspent⟩ := Option.map_eq_some_iff.mp hrun
  refine ⟨plan, toOption_eq_some.mp hplan, hspent, ?_⟩
  intro hkept
  rw [overspent] at hspent
  split_ifs at hspent with hlen
  have hle := hkept demoMint _ _ rfl (Run.of_attempts (useStep plan) _ (overspend plan hlen))
  rw [hspent] at hle
  exact absurd hle (by decide)

end Bufi.Weighted
