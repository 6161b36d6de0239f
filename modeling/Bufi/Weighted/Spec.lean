import Bufi.Evm.Checks
import Bufi.Js.Number

/-!
# The treasury spec

`WeightedTreasurySpec` says who can move money and where it may go, for any
chain: owners with weights, a threshold, a list of recipients and the assets.
`validateSpec` is the check that both compilers start with.  `Valid` is what it
checks, one field for every rule, and `validateSpec_eq_ok` says that it checks
exactly that.
-/

namespace Bufi.Weighted

open Bufi.Evm Bufi.Js

/-! ### The spec -/

def maxWeight : ℕ := 1000000

def maxEvmOwners : ℕ := 1000

structure TreasuryOwner where
  id : String
  weight : Number
  evm : Option String
  solana : Option String
  deriving DecidableEq

structure AllowedRecipient where
  label : Option String
  evm : Option String
  solana : Option String
  deriving DecidableEq

inductive Period
  | oneTime
  | daily
  | weekly
  | monthly
  | custom (customSeconds : Number)
  deriving DecidableEq

structure Budget where
  maxPerPeriod : ℤ
  period : Period
  maxPerUse : Option ℤ
  deriving DecidableEq

structure TreasuryAsset where
  symbol : String
  solanaMint : Option String
  solanaDecimals : Option Number
  budget : Option Budget
  deriving DecidableEq

structure WeightedTreasurySpec where
  version : Number
  owners : List TreasuryOwner
  thresholdWeight : Number
  allowlist : List AllowedRecipient
  assets : List TreasuryAsset
  adminTimelockSeconds : Number
  deriving DecidableEq

/-! ### Errors -/

inductive Backend
  | evm
  | squads
  | spec
  deriving DecidableEq

/-- The reasons to refuse a spec, with what their texts mention. -/
inductive Reason
  | unsupportedVersion (version : Number)
  | noOwner
  | duplicateOwnerId (id : String)
  | invalidWeight (id : String)
  | invalidEvmAddress (id : String)
  | invalidSolanaKey (id : String)
  | invalidThreshold (total : Number)
  | emptyAllowlist
  | noAsset
  | invalidMaxPerPeriod (symbol : String)
  | invalidMaxPerUse (symbol : String)
  | invalidPeriod (symbol : String)
  | invalidTimelock
  | noSolanaKey (id : String)
  | solanaKeyTwice (key : String)
  | noSolanaWallet (entry : String)
  | emptyDestinations
  | tooManyPolicies (coalitions assets : ℕ) (maxPolicies : Number)
  | noSolanaMint (symbol : String)
  | nativeDecimals
  | tooManyEvmOwners
  | noEvmAddress (id : String)
  | evmAddressTwice (address : String)
  | noEvmRecipient (entry : String)
  | budgetOnEvm (symbol : String)
  deriving DecidableEq

/-- The text of a reason; `str` writes a number. -/
def Reason.text (str : Number → String) : Reason → String
  | unsupportedVersion version => "unsupported spec version " ++ str version
  | noOwner => "at least one owner is required"
  | duplicateOwnerId id => "duplicate owner id \"" ++ id ++ "\""
  | invalidWeight id =>
    "owner \"" ++ id ++ "\" weight must be an integer in [1, " ++ str (.ofNat maxWeight) ++ "]"
  | invalidEvmAddress id => "owner \"" ++ id ++ "\" has an invalid EVM address"
  | invalidSolanaKey id => "owner \"" ++ id ++ "\" has an invalid Solana key"
  | invalidThreshold total =>
    "thresholdWeight must be an integer in [1, " ++ str total ++ "] (the sum of owner weights)"
  | emptyAllowlist =>
    "allowlist must not be empty (empty means nobody; Squads would read it as anybody)"
  | noAsset => "at least one asset is required"
  | invalidMaxPerPeriod symbol => symbol ++ ": budget.maxPerPeriod must be positive"
  | invalidMaxPerUse symbol => symbol ++ ": budget.maxPerUse must be in (0, maxPerPeriod]"
  | invalidPeriod symbol => symbol ++ ": custom period must be a positive integer of seconds"
  | invalidTimelock => "adminTimelockSeconds must be a u32"
  | noSolanaKey id => "owner \"" ++ id ++ "\" has no Solana key"
  | solanaKeyTwice key => "Solana key " ++ key ++ " appears on two owners"
  | noSolanaWallet entry => "allowlist entry " ++ entry ++ " has no Solana wallet"
  | emptyDestinations => "empty destinations would allow any address"
  | tooManyPolicies coalitions assets maxPolicies =>
    toString coalitions ++ " minimal coalitions × " ++ toString assets ++ " assets = "
      ++ toString (coalitions * assets) ++ " policies, over the cap of " ++ str maxPolicies
      ++ "; flatten the weights or reduce assets"
  | noSolanaMint symbol => symbol ++ " has no Solana mint"
  | nativeDecimals => "native SOL transfers require decimals = 9"
  | tooManyEvmOwners => "more than " ++ toString maxEvmOwners ++ " owners"
  | noEvmAddress id => "owner \"" ++ id ++ "\" has no EVM address"
  | evmAddressTwice address => "EVM address " ++ address ++ " appears on two owners"
  | noEvmRecipient entry => "allowlist entry " ++ entry ++ " has no EVM address"
  | budgetOnEvm symbol =>
    symbol ++ ": per-period budgets have no EVM enforcement on the weighted multisig; remove the "
      ++ "budget or enforce it with a session-key grant"

/-- What a compiler throws: `SpecNotExpressible`, or a `RangeError` of the
enumeration or of `BigInt`. -/
inductive Failure
  | specNotExpressible (backend : Backend) (reason : Reason)
  | cannotEnumerate (owners : ℕ)
  | notAnInteger
  deriving DecidableEq

/-! ### The check -/

def isHexDigit (c : Char) : Bool :=
  c.isDigit || (decide ('a' ≤ c) && decide (c ≤ 'f')) || (decide ('A' ≤ c) && decide (c ≤ 'F'))

/-- `/^0x[0-9a-fA-F]{40}$/`. -/
def isEvmAddress (value : String) : Bool :=
  match value.toList with
  | '0' :: 'x' :: digits => digits.length == 40 && digits.all isHexDigit
  | _ => false

def isBase58 (c : Char) : Bool :=
  c.isAlphanum && !(c == '0' || c == 'I' || c == 'O' || c == 'l')

/-- `/^[1-9A-HJ-NP-Za-km-z]{32,44}$/`. -/
def isSolanaKey (value : String) : Bool :=
  decide (32 ≤ value.toList.length ∧ value.toList.length ≤ 44) && value.toList.all isBase58

/-- An integer in `[low, high]`. -/
def isIntegerIn (low high x : Number) : Bool := x.isInteger && low.le x && x.le high

def failSpec (reason : Reason) : Failure := .specNotExpressible .spec reason

/-- The loop over the owners: `ids` have been seen, `total` is their weight.  An array has
less than `2 ^ 32` elements and a weight is checked to be at most `maxWeight` before it is
added, so no sum is rounded. -/
def checkOwners : List String → Number → List TreasuryOwner → Except Failure Number
  | _, total, [] => pure total
  | ids, total, owner :: rest => do
    require (owner.id ∉ ids) (failSpec (.duplicateOwnerId owner.id))
    require (isIntegerIn (.ofNat 1) (.ofNat maxWeight) owner.weight = true)
      (failSpec (.invalidWeight owner.id))
    require (owner.evm.all isEvmAddress = true) (failSpec (.invalidEvmAddress owner.id))
    require (owner.solana.all isSolanaKey = true) (failSpec (.invalidSolanaKey owner.id))
    checkOwners (ids ++ [owner.id]) (total.add owner.weight) rest

def validPeriod : Period → Bool
  | .custom customSeconds => customSeconds.isInteger && (Number.ofNat 0).lt customSeconds
  | _ => true

def checkBudget (asset : TreasuryAsset) : Except Failure Unit :=
  match asset.budget with
  | none => pure ()
  | some budget => do
    require (0 < budget.maxPerPeriod) (failSpec (.invalidMaxPerPeriod asset.symbol))
    require (budget.maxPerUse.all (fun use => decide (0 < use ∧ use ≤ budget.maxPerPeriod)) = true)
      (failSpec (.invalidMaxPerUse asset.symbol))
    require (validPeriod budget.period = true) (failSpec (.invalidPeriod asset.symbol))

def checkBudgets : List TreasuryAsset → Except Failure Unit
  | [] => pure ()
  | asset :: rest => do
    checkBudget asset
    checkBudgets rest

def validateSpec (spec : WeightedTreasurySpec) : Except Failure Unit := do
  require (spec.version = .ofNat 1) (failSpec (.unsupportedVersion spec.version))
  require (spec.owners.length ≠ 0) (failSpec .noOwner)
  let total ← checkOwners [] (.ofNat 0) spec.owners
  require (isIntegerIn (.ofNat 1) total spec.thresholdWeight = true)
    (failSpec (.invalidThreshold total))
  require (spec.allowlist.length ≠ 0) (failSpec .emptyAllowlist)
  require (spec.assets.length ≠ 0) (failSpec .noAsset)
  checkBudgets spec.assets
  require (isIntegerIn (.ofNat 0) (.ofNat 0xffffffff) spec.adminTimelockSeconds = true)
    (failSpec .invalidTimelock)

/-! ### What it checks -/

/-- The weight of an owner. -/
def TreasuryOwner.weightNat (owner : TreasuryOwner) : ℕ := owner.weight.toNat

def totalWeight (owners : List TreasuryOwner) : ℕ := (owners.map TreasuryOwner.weightNat).sum

structure ValidOwner (owner : TreasuryOwner) : Prop where
  weight : owner.weight = .ofNat owner.weightNat
  weight_pos : 1 ≤ owner.weightNat
  weight_le : owner.weightNat ≤ maxWeight
  evm : ∀ address, owner.evm = some address → isEvmAddress address = true
  solana : ∀ key, owner.solana = some key → isSolanaKey key = true

structure ValidBudget (budget : Budget) : Prop where
  maxPerPeriod : 0 < budget.maxPerPeriod
  maxPerUse : ∀ use, budget.maxPerUse = some use → 0 < use ∧ use ≤ budget.maxPerPeriod
  period : ∀ secs, budget.period = .custom secs → ∃ n : ℕ, 0 < n ∧ secs = .ofNat n

/-- The rules of a spec. -/
structure Valid (spec : WeightedTreasurySpec) : Prop where
  version : spec.version = .ofNat 1
  owners_ne : spec.owners ≠ []
  ids_nodup : (spec.owners.map TreasuryOwner.id).Nodup
  owner : ∀ owner ∈ spec.owners, ValidOwner owner
  threshold : spec.thresholdWeight = .ofNat spec.thresholdWeight.toNat
  threshold_pos : 1 ≤ spec.thresholdWeight.toNat
  threshold_le : spec.thresholdWeight.toNat ≤ totalWeight spec.owners
  allowlist_ne : spec.allowlist ≠ []
  assets_ne : spec.assets ≠ []
  budget : ∀ asset ∈ spec.assets, ∀ budget, asset.budget = some budget → ValidBudget budget
  timelock : ∃ n : ℕ, n ≤ 0xffffffff ∧ spec.adminTimelockSeconds = .ofNat n

theorem isIntegerIn_iff {low high : ℕ} {x : Number} :
    isIntegerIn (.ofNat low) (.ofNat high) x = true
      ↔ x = .ofNat x.toNat ∧ low ≤ x.toNat ∧ x.toNat ≤ high := by
  rw [isIntegerIn, Bool.and_eq_true, Bool.and_eq_true, Number.isInteger_iff]
  constructor
  · rintro ⟨⟨⟨n, rfl⟩, hlow⟩, hhigh⟩
    rw [Number.ofNat, Number.le_ofInt] at hlow hhigh
    obtain ⟨k, rfl⟩ := Int.eq_ofNat_of_zero_le (le_trans (Int.natCast_nonneg low) hlow)
    have hk : (Number.ofInt k).toNat = k := Number.toNat_ofNat k
    rw [hk]
    exact ⟨rfl, by exact_mod_cast hlow, by exact_mod_cast hhigh⟩
  · rintro ⟨hx, hlow, hhigh⟩
    rw [hx, Number.le_ofNat, Number.le_ofNat]
    exact ⟨⟨⟨_, rfl⟩, hlow⟩, hhigh⟩

theorem option_all_iff {α : Type} {p : α → Bool} {x : Option α} :
    x.all p = true ↔ ∀ a, x = some a → p a = true := by
  cases x with
  | none => simp
  | some a => simp

theorem checkOwners_eq_ok {ids : List String} {a : ℕ} {owners : List TreasuryOwner}
    {total : Number} :
    checkOwners ids (.ofNat a) owners = .ok total
      ↔ (∀ owner ∈ owners, ValidOwner owner ∧ owner.id ∉ ids)
        ∧ (owners.map TreasuryOwner.id).Nodup ∧ total = .ofNat (a + totalWeight owners) := by
  induction owners generalizing ids a with
  | nil => simp [checkOwners, pure_eq_ok, totalWeight]
  | cons owner rest ih =>
    simp only [checkOwners, bind_eq_ok, require_eq_ok, exists_const, option_all_iff,
      isIntegerIn_iff]
    constructor
    · rintro ⟨hid, ⟨hw, hpos, hle⟩, hevm, hsol, hrest⟩
      rw [hw, Number.add_ofNat, ih] at hrest
      obtain ⟨hall, hnodup, rfl⟩ := hrest
      refine ⟨?_, ?_, ?_⟩
      · intro o ho
        rcases List.mem_cons.mp ho with rfl | ho
        · exact ⟨⟨hw, hpos, hle, hevm, hsol⟩, hid⟩
        · exact ⟨(hall o ho).1, fun hmem => (hall o ho).2 (List.mem_append_left _ hmem)⟩
      · refine List.nodup_cons.mpr ⟨?_, hnodup⟩
        intro hmem
        obtain ⟨o, ho, heq⟩ := List.mem_map.mp hmem
        exact (hall o ho).2 (by rw [heq]; exact List.mem_append_right _ (List.mem_singleton_self _))
      · rw [totalWeight, totalWeight, List.map_cons, List.sum_cons, ← Nat.add_assoc]
        rfl
    · rintro ⟨hall, hnodup, rfl⟩
      obtain ⟨hown, hid⟩ := hall owner List.mem_cons_self
      rw [List.map_cons, List.nodup_cons] at hnodup
      refine ⟨hid, ⟨hown.weight, hown.weight_pos, hown.weight_le⟩, hown.evm, hown.solana, ?_⟩
      rw [hown.weight, Number.add_ofNat, ih]
      refine ⟨?_, hnodup.2, ?_⟩
      · intro o ho
        refine ⟨(hall o (List.mem_cons_of_mem _ ho)).1, ?_⟩
        intro hmem
        rcases List.mem_append.mp hmem with hmem | hmem
        · exact (hall o (List.mem_cons_of_mem _ ho)).2 hmem
        · rw [List.mem_singleton] at hmem
          exact hnodup.1 (List.mem_map.mpr ⟨o, ho, hmem⟩)
      · rw [totalWeight, totalWeight, List.map_cons, List.sum_cons, Nat.add_assoc]

theorem validPeriod_iff {period : Period} :
    validPeriod period = true
      ↔ ∀ secs, period = .custom secs → ∃ n : ℕ, 0 < n ∧ secs = .ofNat n := by
  cases period with
  | custom secs =>
    rw [validPeriod, Bool.and_eq_true, Number.isInteger_iff]
    constructor
    · rintro ⟨⟨n, rfl⟩, hpos⟩ _ heq
      rw [Number.ofNat, Number.lt_ofInt] at hpos
      obtain ⟨k, rfl⟩ := Int.eq_ofNat_of_zero_le hpos.le
      rw [← Period.custom.inj heq]
      exact ⟨k, by exact_mod_cast hpos, rfl⟩
    · intro h
      obtain ⟨n, hn, rfl⟩ := h secs rfl
      exact ⟨⟨n, rfl⟩, Number.lt_ofNat.mpr hn⟩
  | oneTime | daily | weekly | monthly => simp [validPeriod]

theorem checkBudget_eq_ok {asset : TreasuryAsset} {u : Unit} :
    checkBudget asset = .ok u ↔ ∀ budget, asset.budget = some budget → ValidBudget budget := by
  rw [checkBudget]
  cases asset.budget with
  | none => simp [pure_eq_ok]
  | some budget =>
    simp only [bind_eq_ok, require_eq_ok, exists_const, option_all_iff, validPeriod_iff,
      decide_eq_true_eq]
    constructor
    · rintro ⟨h1, h2, h3⟩ _ heq
      rw [← Option.some.inj heq]
      exact ⟨h1, h2, h3⟩
    · intro h
      obtain ⟨h1, h2, h3⟩ := h budget rfl
      exact ⟨h1, h2, h3⟩

theorem checkBudgets_eq_ok {assets : List TreasuryAsset} {u : Unit} :
    checkBudgets assets = .ok u
      ↔ ∀ asset ∈ assets, ∀ budget, asset.budget = some budget → ValidBudget budget := by
  induction assets with
  | nil => simp [checkBudgets, pure_eq_ok]
  | cons asset rest ih =>
    simp only [checkBudgets, bind_eq_ok, exists_const, checkBudget_eq_ok, ih, List.forall_mem_cons]

/-- **`validateSpec` checks the rules.** -/
theorem validateSpec_eq_ok {spec : WeightedTreasurySpec} {u : Unit} :
    validateSpec spec = .ok u ↔ Valid spec := by
  simp only [validateSpec, bind_eq_ok, require_eq_ok, exists_const, checkOwners_eq_ok,
    checkBudgets_eq_ok, Nat.zero_add, List.not_mem_nil, not_false_eq_true, and_true, ne_eq,
    List.length_eq_zero_iff]
  constructor
  · rintro ⟨h1, h2, total, ⟨h3, h4, rfl⟩, h5, h6, h7, h8, h9⟩
    obtain ⟨ht, hpos, hle⟩ := isIntegerIn_iff.mp h5
    obtain ⟨htime, -, hmax⟩ := isIntegerIn_iff.mp h9
    exact ⟨h1, h2, h4, h3, ht, hpos, hle, h6, h7, h8, _, hmax, htime⟩
  · intro h
    obtain ⟨n, hn, htime⟩ := h.timelock
    refine ⟨h.version, h.owners_ne, _, ⟨h.owner, h.ids_nodup, rfl⟩, ?_, h.allowlist_ne,
      h.assets_ne, h.budget, ?_⟩
    · exact isIntegerIn_iff.mpr ⟨h.threshold, h.threshold_pos, h.threshold_le⟩
    · refine isIntegerIn_iff.mpr ?_
      rw [htime, Number.toNat_ofNat]
      exact ⟨rfl, Nat.zero_le n, hn⟩

end Bufi.Weighted
