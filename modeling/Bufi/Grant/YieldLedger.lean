import Bufi.Grant.YieldCalls

/-!
# Spending from yield on the balances of the account

`execute` makes a call on the balances of the account.  A vault pays what is withdrawn and
burns shares of the account, which are tokens too.

The withdrawals raise the balance of every token that is paid to what is paid
(`executeAll_withdrawals`), but for the shares they burn: those are not counted when a
share is itself paid.  The transfers succeed if each is covered by what the ones before it
left (`executeAll_transfers`).
-/

namespace Bufi.Grant

open Bufi.Evm Bufi.Js Bufi.Session

/-! ### The account -/

/-- The balances of the account. -/
abbrev Balances : Type := Token → ℤ

def balancesOf (balances : List TokenBalance) : Balances := fun key =>
  ((balances.find? (fun b => normalize b.token = key)).map TokenBalance.balance).getD 0

/-- The token of a vault, and the shares that a withdrawal from it burns. -/
structure Vaults where
  tokenOf : Token → Token
  burned : Token → ℕ

/-- A call of the account; `none` is a call that reverts. -/
def execute (v : Vaults) (account : Option Address) (l : Balances) (call : YieldCall) :
    Option Balances :=
  let target := normalize call.target
  if selectorOf call.data = ERC20_TRANSFER_SELECTOR then do
    let (to', amount) ← tokenArguments call.data
    guard ((amount.toNat : ℤ) ≤ l target)
    return if account = some to' then l else Function.update l target (l target - amount.toNat)
  else do
    let (assets, receiver, owner) ← vaultArguments call.data
    guard (selectorOf call.data = ERC4626_WITHDRAW_SELECTOR ∧ account = some receiver
      ∧ account = some owner ∧ (v.burned target : ℤ) ≤ l target)
    let l := Function.update l target (l target - v.burned target)
    return Function.update l (v.tokenOf target) (l (v.tokenOf target) + assets.toNat)

def executeAll (v : Vaults) (account : Option Address) (l : Balances) (calls : List YieldCall) :
    Option Balances :=
  calls.foldlM (execute v account) l

theorem executeAll_cons {v : Vaults} {account : Option Address} {l l' : Balances} {call : YieldCall}
    {calls : List YieldCall} : executeAll v account l (call :: calls) = some l' ↔
      ∃ m, execute v account l call = some m ∧ executeAll v account m calls = some l' := by
  rw [executeAll, List.foldlM_cons, Option.bind_eq_bind, Option.bind_eq_some_iff]
  rfl

theorem executeAll_append {v : Vaults} {account : Option Address} {l l' : Balances}
    {calls calls' : List YieldCall} : executeAll v account l (calls ++ calls') = some l' ↔
      ∃ m, executeAll v account l calls = some m ∧ executeAll v account m calls' = some l' := by
  rw [executeAll, List.foldlM_append, Option.bind_eq_bind, Option.bind_eq_some_iff]
  rfl

/-! ### Transfers -/

/-- What a list of payments pays to others in a token. -/
def outflow (account : String) (payments : List YieldPayment) (key : Token) : ℤ :=
  paid (payments.filter (fun x => addressOf x.to' ≠ addressOf account)) key

theorem outflow_cons (account : String) (x : YieldPayment) (payments : List YieldPayment)
    (key : Token) : outflow account (x :: payments) key
      = (if addressOf x.to' ≠ addressOf account ∧ normalize x.token = key then x.amount else 0)
        + outflow account payments key := by
  simp only [outflow, paid]
  by_cases hto : addressOf x.to' = addressOf account
  · simp [hto]
  · by_cases hkey : normalize x.token = key
    · simp [hto, hkey]
    · simp [hto, hkey]

section

variable {v : Vaults} {account : String}

/-- A payment needs its amount, and takes it unless it goes to the account itself. -/
theorem execute_pays {x : YieldPayment} {call : YieldCall} (hx : Pays x call) {l l' : Balances} :
    execute v (addressOf account) l call = some l' ↔
      x.amount ≤ l (normalize x.token) ∧ l' = fun key => l key -
        if addressOf x.to' ≠ addressOf account ∧ normalize x.token = key then x.amount else 0 := by
  obtain ⟨a, n, ha, hn, hargs⟩ := hx.arguments
  simp only [execute, if_pos hx.selector, hargs, hx.target, Option.bind_eq_bind,
    Option.bind_some, Option.bind_eq_some_iff, Option.guard_eq_some', exists_const,
    Option.pure_def, Option.some.injEq, ha, hn, eq_comm (a := l')]
  refine and_congr_right (fun _ => Eq.congr_left ?_)
  by_cases hto : addressOf account = some a
  · simp [hto]
  · rw [if_neg hto]
    funext key
    rw [Function.update_apply]
    by_cases hkey : key = normalize x.token
    · rw [if_pos hkey, if_pos ⟨Ne.symm hto, hkey.symm⟩, hkey]
    · rw [if_neg hkey, if_neg (fun h => hkey h.2.symm), sub_zero]

/-- **The transfers succeed if each is covered by what the ones before it left.** -/
theorem executeAll_transfers {payments : List YieldPayment} {calls : List YieldCall}
    (h : List.Forall₂ Pays payments calls) (l : Balances) :
    (∃ l', executeAll v (addressOf account) l calls = some l') ↔
      ∀ before x after, payments = before ++ x :: after →
        outflow account before (normalize x.token) + x.amount ≤ l (normalize x.token) := by
  induction h generalizing l with
  | nil =>
    refine iff_of_true ⟨l, rfl⟩ (fun before x after heq => ?_)
    simp at heq
  | @cons x call payments calls hx hrest ih =>
    simp only [executeAll_cons, execute_pays hx]
    constructor
    · rintro ⟨l', m, ⟨hle, rfl⟩, hcalls⟩ before y after heq
      cases before with
      | nil =>
        obtain ⟨rfl, -⟩ := List.cons.inj heq
        simpa [outflow, paid] using hle
      | cons z before =>
        obtain ⟨rfl, hafter⟩ := List.cons.inj heq
        have hy := (ih _).mp ⟨l', hcalls⟩ before y after hafter
        rw [outflow_cons]
        omega
    · intro hall
      have hle := hall [] x payments rfl
      obtain ⟨l', hcalls⟩ := (ih (fun key => l key -
          if addressOf x.to' ≠ addressOf account ∧ normalize x.token = key then x.amount
          else 0)).mpr (fun before y after heq => by
        have hy := hall (x :: before) y after (congrArg (List.cons x) heq)
        rw [outflow_cons] at hy
        omega)
      exact ⟨l', _, ⟨by simpa [outflow, paid] using hle, rfl⟩, hcalls⟩

end

/-! ### Withdrawals -/

/-- What is sourced of a token. -/
def withdrawn (sourced : List YieldSource) (key : Token) : ℤ :=
  ((sourced.filter (fun x => normalize x.token = key)).map YieldSource.amount).sum

/-- The shares that are burned for what is sourced. -/
def sharesBurned (v : Vaults) (sourced : List YieldSource) (key : Token) : ℤ :=
  if ∃ x ∈ sourced, normalize x.vault = key then v.burned key else 0

theorem withdrawn_cons (x : YieldSource) (sourced : List YieldSource) (key : Token) :
    withdrawn (x :: sourced) key
      = (if normalize x.token = key then x.amount else 0) + withdrawn sourced key := by
  by_cases h : normalize x.token = key
  · simp [withdrawn, h]
  · simp [withdrawn, h]

/-- Different tokens are kept in different vaults. -/
theorem sharesBurned_cons {v : Vaults} {x : YieldSource} {sourced : List YieldSource}
    (h : ((x :: sourced).map (fun y => normalize y.vault)).Nodup) (key : Token) :
    sharesBurned v (x :: sourced) key
      = (if normalize x.vault = key then (v.burned key : ℤ) else 0)
        + sharesBurned v sourced key := by
  rw [List.map_cons, List.nodup_cons] at h
  by_cases hkey : normalize x.vault = key
  · have hnot : ¬ ∃ y ∈ sourced, normalize y.vault = key := by
      rintro ⟨y, hy, heq⟩
      exact h.1 (List.mem_map.mpr ⟨y, hy, heq.trans hkey.symm⟩)
    rw [sharesBurned, if_pos ⟨x, List.mem_cons_self, hkey⟩, sharesBurned, if_neg hnot, if_pos hkey,
      add_zero]
  · simp only [sharesBurned, List.exists_mem_cons_iff, hkey, false_or, if_false, zero_add]

section

variable {v : Vaults} {account : String}

theorem execute_withdraws {x : YieldSource} {call : YieldCall} (hx : Withdraws account x call)
    {l l' : Balances} (h : execute v (addressOf account) l call = some l') (key : Token) :
    l' key = l key - (if normalize x.vault = key then (v.burned key : ℤ) else 0)
      + if v.tokenOf (normalize x.vault) = key then x.amount else 0 := by
  obtain ⟨a, n, ha, hn, hargs⟩ := hx.arguments
  have hselector : selectorOf call.data ≠ ERC20_TRANSFER_SELECTOR := by
    rw [hx.selector]
    decide
  simp only [execute, if_neg hselector, hargs, hx.target, Option.bind_eq_bind, Option.bind_some,
    Option.bind_eq_some_iff, Option.guard_eq_some', exists_const, Option.pure_def,
    Option.some.injEq] at h
  obtain ⟨-, rfl⟩ := h
  simp only [hn, Function.update_apply]
  by_cases hburned : normalize x.vault = key
  · subst hburned
    by_cases hpaid : v.tokenOf (normalize x.vault) = normalize x.vault
    · simp only [hpaid, if_true]
    · simp only [hpaid, Ne.symm hpaid, if_true, if_false, add_zero]
  · by_cases hpaid : v.tokenOf (normalize x.vault) = key
    · subst hpaid
      simp only [hburned, Ne.symm hburned, if_true, if_false, sub_zero]
    · simp only [hburned, hpaid, Ne.symm hburned, Ne.symm hpaid, if_false, sub_zero, add_zero]

/-- **The withdrawals bring what is sourced, and burn shares.** -/
theorem executeAll_withdrawals {sourced : List YieldSource} {calls : List YieldCall}
    (h : List.Forall₂ (Withdraws account) sourced calls)
    (htoken : ∀ x ∈ sourced, v.tokenOf (normalize x.vault) = normalize x.token)
    (hvaults : (sourced.map (fun x => normalize x.vault)).Nodup) {l l' : Balances}
    (hcalls : executeAll v (addressOf account) l calls = some l') (key : Token) :
    l' key = l key + withdrawn sourced key - sharesBurned v sourced key := by
  induction h generalizing l with
  | nil =>
    obtain rfl := Option.some.inj hcalls
    simp [withdrawn, sharesBurned]
  | @cons x call sourced calls hx hrest ih =>
    obtain ⟨m, hcall, hcalls⟩ := executeAll_cons.mp hcalls
    obtain ⟨hxtoken, htoken⟩ := List.forall_mem_cons.mp htoken
    have hm := execute_withdraws hx hcall key
    rw [hxtoken] at hm
    rw [ih htoken (List.nodup_cons.mp hvaults).2 hcalls, hm, withdrawn_cons,
      sharesBurned_cons hvaults]
    omega

end

/-! ### What is sourced -/

theorem sourceOf_eq_some {liquid : List (Token × ℤ)} {vaults : List (Token × String)}
    {e : Token × Need} {x : YieldSource} (h : sourceOf liquid vaults e = some x) :
    0 < shortfall liquid e ∧ vaults.lookup e.1 = some x.vault ∧ x.token = e.2.token
      ∧ x.amount = shortfall liquid e := by
  rw [sourceOf] at h
  split_ifs at h with hle
  obtain ⟨vault, hvault, rfl⟩ := Option.map_eq_some_iff.mp h
  exact ⟨not_le.mp hle, hvault, rfl, rfl⟩

section

variable {liquid : List (Token × ℤ)} {vaults : List (Token × String)}
  {needed : List (Token × Need)}

theorem sourced_sublist (htoken : ∀ e ∈ needed, normalize e.2.token = e.1) :
    List.Sublist ((needed.filterMap (sourceOf liquid vaults)).map (fun x => normalize x.token))
      (needed.map Prod.fst) := by
  induction needed with
  | nil => exact .slnil
  | cons e needed ih =>
    obtain ⟨he, hrest⟩ := List.forall_mem_cons.mp htoken
    rw [List.filterMap_cons, List.map_cons]
    cases hx : sourceOf liquid vaults e with
    | none => exact .cons _ (ih hrest)
    | some x =>
      have hkey : normalize x.token = e.1 := (sourceOf_eq_some hx).2.2.1 ▸ he
      rw [List.map_cons, hkey]
      exact .cons_cons _ (ih hrest)

/-- Of a token as much is withdrawn as is missing. -/
theorem withdrawn_sourced (htoken : ∀ e ∈ needed, normalize e.2.token = e.1)
    (hvault : ∀ e ∈ needed, 0 < shortfall liquid e → ∃ vault, vaults.lookup e.1 = some vault)
    (hnodup : (needed.map Prod.fst).Nodup) (key : Token) :
    withdrawn (needed.filterMap (sourceOf liquid vaults)) key
      = ((needed.lookup key).map (fun need => max 0 (shortfall liquid (key, need)))).getD 0 := by
  induction needed with
  | nil => rfl
  | cons e needed ih =>
    obtain ⟨he, htoken⟩ := List.forall_mem_cons.mp htoken
    obtain ⟨hefirst, hvault⟩ := List.forall_mem_cons.mp hvault
    rw [List.map_cons, List.nodup_cons] at hnodup
    have ih := ih htoken hvault hnodup.2
    have hfirst : withdrawn ((e :: needed).filterMap (sourceOf liquid vaults)) key
        = (if e.1 = key then max 0 (shortfall liquid e) else 0)
          + withdrawn (needed.filterMap (sourceOf liquid vaults)) key := by
      rw [List.filterMap_cons]
      by_cases hle : shortfall liquid e ≤ 0
      · rw [sourceOf, if_pos hle, max_eq_left hle, ite_self, zero_add]
      · obtain ⟨vault, hlookup⟩ := hefirst (not_le.mp hle)
        rw [sourceOf, if_neg hle, hlookup, max_eq_right (not_le.mp hle).le]
        exact (withdrawn_cons _ _ _).trans (by rw [he])
    rw [hfirst, ih, List.lookup_cons]
    by_cases hkey : key = e.1
    · subst hkey
      rw [lookup_of_not_mem hnodup.1, beq_self_eq_true, if_pos rfl]
      exact add_zero _
    · rw [beq_false_of_ne hkey, if_neg (Ne.symm hkey), zero_add]

end

theorem getD_lookup_liquidOf {balances : List TokenBalance}
    (h : (balances.map (fun b => normalize b.token)).Nodup) (key : Token) :
    ((liquidOf balances).lookup key).getD 0 = balancesOf balances key := by
  rw [liquidOf, lookup_foldl_mapSet (fun b : TokenBalance => normalize b.token) TokenBalance.balance,
    lastWith_eq_find? h]
  rfl

/-- The vault of a token: the last one listed. -/
def vaultFor (vaults : List VaultConfig) (key : Token) : Option String :=
  (lastWith (fun v : VaultConfig => normalize v.token = key) vaults).map VaultConfig.vault

theorem lookup_vaultOf (vaults : List VaultConfig) (key : Token) :
    (vaultOf vaults).lookup key = vaultFor vaults key :=
  lookup_foldl_mapSet (fun v : VaultConfig => normalize v.token) VaultConfig.vault vaults key

theorem exists_vaultFor {vaults : List VaultConfig} {key : Token} :
    (∃ vault, vaultFor vaults key = some vault) ↔ ∃ v ∈ vaults, normalize v.token = key := by
  constructor
  · rintro ⟨vault, h⟩
    obtain ⟨v, hv, -⟩ := Option.map_eq_some_iff.mp h
    exact ⟨v, lastWith_eq_some hv⟩
  · rintro ⟨v, hv, hkey⟩
    cases hlast : lastWith (fun v : VaultConfig => normalize v.token = key) vaults with
    | none => exact absurd hkey (lastWith_eq_none.mp hlast v hv)
    | some w => exact ⟨w.vault, by rw [vaultFor, hlast]; rfl⟩

/-! ### The parameters -/

section

variable (checksumAddress : String → String) (v : Vaults)
  (p : BuildSpendFromYieldCallsParameters)

/-- The liquid balance does not cover what is paid. -/
def Short (key : Token) : Prop := balancesOf p.balances key < paid p.payments key

instance (key : Token) : Decidable (Short p key) := inferInstanceAs (Decidable (_ < _))

/-- A payment is negative, or a token is short and has no vault. -/
def Refused : Prop :=
  (∃ x ∈ p.payments, x.amount < 0) ∨
    ∃ x ∈ p.payments, Short p (normalize x.token) ∧
      ¬ ∃ w ∈ p.vaults, normalize w.token = normalize x.token

/-- The addresses and amounts are those of a call. -/
def Encodable : Prop :=
  (∀ x ∈ p.payments, isAddress checksumAddress x.to' = true ∧ x.amount < 2 ^ 256) ∧
    ∀ x ∈ p.payments, Short p (normalize x.token) → isAddress checksumAddress p.account = true ∧
      paid p.payments (normalize x.token) - balancesOf p.balances (normalize x.token) < 2 ^ 256

/-- The shares of a vault that are burned for the tokens that are short. -/
def burnedFor (key : Token) : ℤ :=
  if ∃ x ∈ p.payments, Short p (normalize x.token) ∧
    (vaultFor p.vaults (normalize x.token)).map normalize = some key then v.burned key else 0

/-- A payment, what was paid to others before it and the shares burned fit into what is paid
or liquid of its token, whichever is more. -/
def Covered : Prop :=
  ∀ before x after, p.payments = before ++ x :: after →
    outflow p.account before (normalize x.token) + x.amount + burnedFor v p (normalize x.token)
      ≤ max (paid p.payments (normalize x.token)) (balancesOf p.balances (normalize x.token))

/-- The calls pay every payment once and in order, and withdraw what is missing. -/
structure MinimalCalls (r : SpendFromYieldCalls) : Prop where
  calls : r.calls = r.withdrawals ++ r.transfers
  transfers : List.Forall₂ Pays p.payments r.transfers
  sourced : List.Forall₂ (Withdraws p.account) r.sourced r.withdrawals
  vaults : ∀ x ∈ r.sourced, ∃ w ∈ p.vaults, normalize w.token = normalize x.token ∧
    w.vault = x.vault
  once : (r.sourced.map (fun x => normalize x.token)).Nodup
  tokens : ∀ x ∈ r.sourced, ∃ y ∈ p.payments, normalize y.token = normalize x.token
  amount : ∀ x ∈ p.payments, withdrawn r.sourced (normalize x.token)
    = max 0 (paid p.payments (normalize x.token) - balancesOf p.balances (normalize x.token))

/-- The builder throws where it has to, and otherwise returns calls that the account can make. -/
structure SpendsFromYield : Prop where
  throws : (∃ e, buildSpendFromYieldCalls checksumAddress p = .error e) ↔ Refused p
  minimal : ∀ r, buildSpendFromYieldCalls checksumAddress p = .ok r → MinimalCalls p r
  solvent : ∀ r, buildSpendFromYieldCalls checksumAddress p = .ok r →
    ∃ l, executeAll v (addressOf p.account) (balancesOf p.balances) r.calls = some l

end

/-! ### Every input -/

theorem Needs.of_mem {payments : List YieldPayment} {needed : List (Token × Need)}
    (h : Needs payments needed) {e : Token × Need} (he : e ∈ needed) :
    normalize e.2.token = e.1 ∧ e.2.amount = paid payments e.1 :=
  h.entry e.1 e.2 (lookup_of_mem h.nodup he)

section

variable {checksumAddress : String → String} {v : Vaults}
  {p : BuildSpendFromYieldCallsParameters} {needed : List (Token × Need)}

theorem shortfall_eq (hbalances : (p.balances.map (fun b => normalize b.token)).Nodup)
    (hneeds : Needs p.payments needed) {e : Token × Need} (he : e ∈ needed) :
    shortfall (liquidOf p.balances) e = paid p.payments e.1 - balancesOf p.balances e.1 := by
  rw [shortfall, (hneeds.of_mem he).2, getD_lookup_liquidOf hbalances]

/-- The entries that need a withdrawal are those of the short tokens. -/
theorem forall_needed (hbalances : (p.balances.map (fun b => normalize b.token)).Nodup)
    (hneeds : Needs p.payments needed) {P : Token → Prop} :
    (∀ e ∈ needed, 0 < shortfall (liquidOf p.balances) e → P e.1) ↔
      ∀ x ∈ p.payments, Short p (normalize x.token) → P (normalize x.token) := by
  constructor
  · intro h x hx hshort
    obtain ⟨e, he, hkey⟩ := List.mem_map.mp ((hneeds.keys _).mpr ⟨x, hx, rfl⟩)
    rw [← hkey]
    refine h e he ?_
    rw [shortfall_eq hbalances hneeds he, hkey]
    exact sub_pos.mpr hshort
  · intro h e he hlt
    obtain ⟨x, hx, hkey⟩ := (hneeds.keys e.1).mp (List.mem_map_of_mem he)
    rw [← hkey]
    refine h x hx ?_
    rw [shortfall_eq hbalances hneeds he] at hlt
    rw [Short, hkey]
    exact sub_pos.mp hlt

theorem build_eq_ok {r : SpendFromYieldCalls} :
    buildSpendFromYieldCalls checksumAddress p = .ok r ↔ ∃ needed sourced transfers,
      p.payments.foldlM addPayment [] = .ok needed ∧
      source checksumAddress p.account (liquidOf p.balances) (vaultOf p.vaults) needed
        = .ok sourced ∧
      p.payments.mapM (payCall checksumAddress) = .ok transfers ∧
      r = ⟨sourced.1, transfers, sourced.1 ++ transfers, sourced.2⟩ := by
  simp only [buildSpendFromYieldCalls, bind_eq_ok, pure_eq_ok, exists_and_left]

theorem exists_build (hbalances : (p.balances.map (fun b => normalize b.token)).Nodup) :
    (∃ r, buildSpendFromYieldCalls checksumAddress p = .ok r) ↔
      ¬ Refused p ∧ Encodable checksumAddress p := by
  have hsource : ∀ {needed}, Needs p.payments needed →
      ((∃ r, source checksumAddress p.account (liquidOf p.balances) (vaultOf p.vaults) needed = .ok r)
        ↔ ∀ x ∈ p.payments, Short p (normalize x.token) →
          (∃ w ∈ p.vaults, normalize w.token = normalize x.token) ∧
          isAddress checksumAddress p.account = true ∧
          paid p.payments (normalize x.token) - balancesOf p.balances (normalize x.token)
            < 2 ^ 256) := by
    intro needed hneeds
    rw [exists_source, ← forall_needed hbalances hneeds (P := fun key =>
      (∃ w ∈ p.vaults, normalize w.token = key) ∧ isAddress checksumAddress p.account = true ∧
        paid p.payments key - balancesOf p.balances key < 2 ^ 256)]
    refine forall₂_congr (fun e he => imp_congr_right (fun _ => ?_))
    rw [lookup_vaultOf, exists_vaultFor, shortfall_eq hbalances hneeds he]
  constructor
  · rintro ⟨r, h⟩
    obtain ⟨needed, sourced, transfers, hneeded, hsourced, htransfers, -⟩ := build_eq_ok.mp h
    obtain ⟨hnonneg, hneeds⟩ := needs_of_foldlM .nil hneeded
    rw [List.nil_append] at hneeds
    have hshort := (hsource hneeds).mp ⟨sourced, hsourced⟩
    have hpay := fun x hx => exists_payCall.mp (exists_mapM.mp ⟨transfers, htransfers⟩ x hx)
    refine ⟨?_, fun x hx => ⟨(hpay x hx).1, (hpay x hx).2.2⟩, fun x hx hs => (hshort x hx hs).2⟩
    rintro (⟨x, hx, hneg⟩ | ⟨x, hx, hs, hnone⟩)
    · exact absurd (hnonneg x hx) (not_le.mpr hneg)
    · exact hnone (hshort x hx hs).1
  · rintro ⟨hrefused, hto, haccount⟩
    rw [Refused, not_or] at hrefused
    have hnonneg : ∀ x ∈ p.payments, 0 ≤ x.amount :=
      fun x hx => not_lt.mp (fun hneg => hrefused.1 ⟨x, hx, hneg⟩)
    obtain ⟨needed, hneeded⟩ := exists_needed hnonneg []
    have hneeds := (needs_of_foldlM .nil hneeded).2
    rw [List.nil_append] at hneeds
    obtain ⟨sourced, hsourced⟩ := (hsource hneeds).mpr (fun x hx hs =>
      ⟨not_not.mp (fun hnone => hrefused.2 ⟨x, hx, hs, hnone⟩), haccount x hx hs⟩)
    have hpay : ∀ x ∈ p.payments, ∃ call, payCall checksumAddress x = .ok call :=
      fun x hx => exists_payCall.mpr ⟨(hto x hx).1, hnonneg x hx, (hto x hx).2⟩
    obtain ⟨transfers, htransfers⟩ := exists_mapM.mpr hpay
    exact ⟨_, build_eq_ok.mpr ⟨needed, sourced, transfers, hneeded, hsourced, htransfers, rfl⟩⟩

/-- What is sourced: of the short tokens, from their vaults. -/
theorem mem_sourced (hbalances : (p.balances.map (fun b => normalize b.token)).Nodup)
    (hneeds : Needs p.payments needed) {x : YieldSource}
    (hx : x ∈ needed.filterMap (sourceOf (liquidOf p.balances) (vaultOf p.vaults))) :
    (∃ y ∈ p.payments, normalize y.token = normalize x.token) ∧ Short p (normalize x.token) ∧
      vaultFor p.vaults (normalize x.token) = some x.vault := by
  obtain ⟨e, he, hsource⟩ := List.mem_filterMap.mp hx
  obtain ⟨hlt, hvault, htoken, -⟩ := sourceOf_eq_some hsource
  have hkey : normalize x.token = e.1 := htoken ▸ (hneeds.of_mem he).1
  rw [hkey]
  rw [shortfall_eq hbalances hneeds he] at hlt
  exact ⟨(hneeds.keys e.1).mp (List.mem_map_of_mem he), sub_pos.mp hlt,
    (lookup_vaultOf p.vaults e.1).symm.trans hvault⟩

theorem exists_sourced (hbalances : (p.balances.map (fun b => normalize b.token)).Nodup)
    (hneeds : Needs p.payments needed) {y : YieldPayment} (hy : y ∈ p.payments)
    (hshort : Short p (normalize y.token)) {vault : String}
    (hvault : vaultFor p.vaults (normalize y.token) = some vault) :
    ∃ x ∈ needed.filterMap (sourceOf (liquidOf p.balances) (vaultOf p.vaults)), x.vault = vault := by
  obtain ⟨e, he, hkey⟩ := List.mem_map.mp ((hneeds.keys _).mpr ⟨y, hy, rfl⟩)
  have hlt : 0 < shortfall (liquidOf p.balances) e := by
    rw [shortfall_eq hbalances hneeds he, hkey]
    exact sub_pos.mpr hshort
  refine ⟨⟨e.2.token, vault, shortfall (liquidOf p.balances) e⟩,
    List.mem_filterMap.mpr ⟨e, he, ?_⟩, rfl⟩
  rw [sourceOf, if_neg (not_le.mpr hlt), lookup_vaultOf, hkey, hvault]
  rfl

theorem minimal_of_build (hbalances : (p.balances.map (fun b => normalize b.token)).Nodup)
    {r : SpendFromYieldCalls} (h : buildSpendFromYieldCalls checksumAddress p = .ok r) :
    MinimalCalls p r := by
  obtain ⟨needed, sourced, transfers, hneeded, hsourced, htransfers, rfl⟩ := build_eq_ok.mp h
  obtain ⟨-, hneeds⟩ := needs_of_foldlM .nil hneeded
  rw [List.nil_append] at hneeds
  obtain ⟨hfilter, hcalls⟩ := source_eq_ok hsourced
  have htoken := fun e he => (hneeds.of_mem (e := e) he).1
  refine ⟨rfl, (mapM_eq_ok.mp htransfers).imp (fun _ _ hx => payCall_eq_ok hx), hcalls, ?_, ?_, ?_,
    ?_⟩
  · intro x hx
    obtain ⟨w, hw, hvault⟩ := Option.map_eq_some_iff.mp
      (mem_sourced hbalances hneeds (hfilter ▸ hx)).2.2
    exact ⟨w, (lastWith_eq_some hw).1, (lastWith_eq_some hw).2, hvault⟩
  · rw [hfilter]
    exact hneeds.nodup.sublist (sourced_sublist htoken)
  · intro x hx
    exact (mem_sourced hbalances hneeds (hfilter ▸ hx)).1
  · intro x hx
    obtain ⟨e, he, hkey⟩ := List.mem_map.mp ((hneeds.keys _).mpr ⟨x, hx, rfl⟩)
    have hvault := fun e he hlt => (exists_source.mp ⟨sourced, hsourced⟩ e he hlt).1
    show withdrawn sourced.2 _ = _
    rw [hfilter, withdrawn_sourced htoken hvault hneeds.nodup, ← hkey,
      lookup_of_mem hneeds.nodup he, ← shortfall_eq hbalances hneeds he]
    rfl

/-- The shares that the withdrawals burn. -/
theorem sharesBurned_eq (hbalances : (p.balances.map (fun b => normalize b.token)).Nodup)
    {r : SpendFromYieldCalls} (h : buildSpendFromYieldCalls checksumAddress p = .ok r)
    (key : Token) : sharesBurned v r.sourced key = burnedFor v p key := by
  obtain ⟨needed, sourced, transfers, hneeded, hsourced, -, rfl⟩ := build_eq_ok.mp h
  obtain ⟨-, hneeds⟩ := needs_of_foldlM .nil hneeded
  rw [List.nil_append] at hneeds
  have hiff : (∃ x ∈ sourced.2, normalize x.vault = key) ↔
      ∃ y ∈ p.payments, Short p (normalize y.token) ∧
        (vaultFor p.vaults (normalize y.token)).map normalize = some key := by
    rw [(source_eq_ok hsourced).1]
    constructor
    · rintro ⟨x, hx, rfl⟩
      obtain ⟨⟨y, hy, hkey⟩, hshort, hvault⟩ := mem_sourced hbalances hneeds hx
      rw [← hkey] at hshort hvault
      exact ⟨y, hy, hshort, by rw [hvault, Option.map_some]⟩
    · rintro ⟨y, hy, hshort, hkey⟩
      obtain ⟨vault, hvault, hkey⟩ := Option.map_eq_some_iff.mp hkey
      obtain ⟨x, hx, rfl⟩ := exists_sourced hbalances hneeds hy hshort hvault
      exact ⟨x, hx, hkey⟩
  simp only [sharesBurned, burnedFor, hiff]

/-- **The calls are solvent if no payment needs shares that are burned.** -/
theorem solvent_iff (hbalances : (p.balances.map (fun b => normalize b.token)).Nodup)
    (hvaults : ∀ w ∈ p.vaults, v.tokenOf (normalize w.vault) = normalize w.token)
    {r : SpendFromYieldCalls} (h : buildSpendFromYieldCalls checksumAddress p = .ok r)
    (hshares : ∃ l, executeAll v (addressOf p.account) (balancesOf p.balances) r.withdrawals
      = some l) :
    (∃ l, executeAll v (addressOf p.account) (balancesOf p.balances) r.calls = some l)
      ↔ Covered v p := by
  have hminimal := minimal_of_build hbalances h
  obtain ⟨l, hl⟩ := hshares
  have htoken : ∀ x ∈ r.sourced, v.tokenOf (normalize x.vault) = normalize x.token := by
    intro x hx
    obtain ⟨w, hw, hkey, hvault⟩ := hminimal.vaults x hx
    rw [← hkey, ← hvault]
    exact hvaults w hw
  have hnodup : (r.sourced.map (fun x => normalize x.vault)).Nodup := by
    refine List.Nodup.of_map v.tokenOf ?_
    rw [List.map_map, List.map_congr_left (g := fun x => normalize x.token) htoken]
    exact hminimal.once
  have hbal : ∀ x ∈ p.payments, l (normalize x.token)
      = max (paid p.payments (normalize x.token)) (balancesOf p.balances (normalize x.token))
        - burnedFor v p (normalize x.token) := by
    intro x hx
    rw [executeAll_withdrawals hminimal.sourced htoken hnodup hl, hminimal.amount x hx,
      sharesBurned_eq hbalances h]
    omega
  have hsplit : (∃ l', executeAll v (addressOf p.account) (balancesOf p.balances) r.calls = some l')
      ↔ ∃ l', executeAll v (addressOf p.account) l r.transfers = some l' := by
    rw [hminimal.calls]
    refine exists_congr (fun l' => executeAll_append.trans ⟨?_, fun hl' => ⟨l, hl, hl'⟩⟩)
    rintro ⟨m, hm, hl'⟩
    obtain rfl := Option.some.inj (hl.symm.trans hm)
    exact hl'
  rw [hsplit, executeAll_transfers hminimal.transfers]
  refine forall_congr' (fun before => forall_congr' (fun x => forall_congr' (fun after =>
    forall_congr' (fun heq => ?_))))
  rw [hbal x (heq ▸ List.mem_append_right before List.mem_cons_self)]
  omega

/-- **The builder does what it should on exactly the inputs that it refuses, or that encode
and need no burned shares.** -/
theorem spendsFromYield_iff
    (hbalances : (p.balances.map (fun b => normalize b.token)).Nodup)
    (hvaults : ∀ w ∈ p.vaults, v.tokenOf (normalize w.vault) = normalize w.token)
    (hshares : ∀ r, buildSpendFromYieldCalls checksumAddress p = .ok r →
      ∃ l, executeAll v (addressOf p.account) (balancesOf p.balances) r.withdrawals = some l) :
    SpendsFromYield checksumAddress v p ↔
      Refused p ∨ (Encodable checksumAddress p ∧ Covered v p) := by
  constructor
  · intro h
    by_cases hrefused : Refused p
    · exact .inl hrefused
    · cases hbuild : buildSpendFromYieldCalls checksumAddress p with
      | error e => exact absurd (h.throws.mp ⟨e, hbuild⟩) hrefused
      | ok r =>
        exact .inr ⟨((exists_build hbalances).mp ⟨r, hbuild⟩).2,
          (solvent_iff hbalances hvaults hbuild (hshares r hbuild)).mp (h.solvent r hbuild)⟩
  · intro h
    have hthrows : (∃ e, buildSpendFromYieldCalls checksumAddress p = .error e) ↔ Refused p := by
      cases hbuild : buildSpendFromYieldCalls checksumAddress p with
      | error e =>
        refine iff_of_true ⟨e, rfl⟩ (not_not.mp (fun hrefused => ?_))
        obtain ⟨r, hr⟩ := (exists_build hbalances).mpr ⟨hrefused, (h.resolve_left hrefused).1⟩
        rw [hbuild] at hr
        cases hr
      | ok r =>
        refine iff_of_false (fun ⟨e, he⟩ => by cases he) ?_
        exact ((exists_build hbalances).mp ⟨r, hbuild⟩).1
    refine ⟨hthrows, fun r hr => minimal_of_build hbalances hr, fun r hr => ?_⟩
    have hnot := ((exists_build hbalances).mp ⟨r, hr⟩).1
    exact (solvent_iff hbalances hvaults hr (hshares r hr)).mpr (h.resolve_left hnot).2

end

/-- An account, a token in two spellings, its vault and a payee. -/
def yieldAccount : String := "0x1111111111111111111111111111111111111111"
def yieldToken : String := "0x33333333333333333333333333333333333333ab"
def yieldTokenCapitals : String := "0x33333333333333333333333333333333333333AB"
def yieldVault : String := "0x5555555555555555555555555555555555555555"
def yieldPayee : String := "0x7777777777777777777777777777777777777777"

/-- A share is burned for every unit that is withdrawn, fifty of them. -/
def fiftyShares : Vaults where
  tokenOf _ := normalize yieldToken
  burned _ := 50

/-- Two payments of the token, of which ten are liquid, and some shares. -/
def spendShares (shares : ℤ) : BuildSpendFromYieldCallsParameters where
  account := yieldAccount
  payments := [⟨yieldToken, yieldPayee, 40⟩, ⟨yieldVault, yieldPayee, shares⟩,
    ⟨yieldTokenCapitals, yieldPayee, 20⟩]
  balances := [⟨yieldTokenCapitals, 10⟩, ⟨yieldVault, 100⟩]
  vaults := [⟨yieldToken, yieldVault⟩]

/-- The call list of an amount of shares; the withdrawals pass, and all calls do or do not. -/
def spendSharesOutcome (shares : ℤ) : Option (Bool × Bool) :=
  (buildSpendFromYieldCalls id (spendShares shares)).toOption.map (fun r =>
    let run := executeAll fiftyShares (addressOf yieldAccount)
      (balancesOf (spendShares shares).balances)
    ((run r.withdrawals).isSome, (run r.calls).isSome))

theorem spendSharesOutcome_eq :
    spendSharesOutcome 30 = some (true, true) ∧ spendSharesOutcome 100 = some (true, false) := by
  decide +kernel

theorem spendShares_run {shares : ℤ} {all : Bool}
    (h : spendSharesOutcome shares = some (true, all)) :
    ∃ r, buildSpendFromYieldCalls id (spendShares shares) = .ok r ∧
      (∃ l, executeAll fiftyShares (addressOf yieldAccount)
        (balancesOf (spendShares shares).balances) r.withdrawals = some l) ∧
      (executeAll fiftyShares (addressOf yieldAccount)
        (balancesOf (spendShares shares).balances) r.calls).isSome = all := by
  obtain ⟨r, hr, hrun⟩ := Option.map_eq_some_iff.mp h
  obtain ⟨hwithdrawals, hcalls⟩ := Prod.mk.inj hrun
  exact ⟨r, toOption_eq_some.mp hr, Option.isSome_iff_exists.mp hwithdrawals, hcalls⟩

theorem spendShares_balances (shares : ℤ) :
    ((spendShares shares).balances.map (fun b => normalize b.token)).Nodup := by
  show ([normalize yieldTokenCapitals, normalize yieldVault]).Nodup
  decide +kernel

theorem spendShares_vaults (shares : ℤ) : ∀ w ∈ (spendShares shares).vaults,
    fiftyShares.tokenOf (normalize w.vault) = normalize w.token := by
  intro w hw
  rw [List.mem_singleton.mp hw]
  rfl

/-- Thirty shares are paid, and fifty of a hundred are burned. -/
theorem spendsFromYield_thirty : SpendsFromYield id fiftyShares (spendShares 30) := by
  obtain ⟨r, hr, hwithdrawals, hcalls⟩ := spendShares_run spendSharesOutcome_eq.1
  refine (spendsFromYield_iff (spendShares_balances 30) (spendShares_vaults 30) ?_).mpr
    (.inr ⟨?_, ?_⟩)
  · intro r' hr'
    obtain rfl := Except.ok.inj (hr.symm.trans hr')
    exact hwithdrawals
  · exact ((exists_build (spendShares_balances 30)).mp ⟨r, hr⟩).2
  · exact (solvent_iff (spendShares_balances 30) (spendShares_vaults 30) hr hwithdrawals).mp
      (Option.isSome_iff_exists.mp hcalls)

/-- A hundred shares are paid, which is what is liquid before fifty of them are burned. -/
theorem not_spendsFromYield_hundred :
    (∀ r, buildSpendFromYieldCalls id (spendShares 100) = .ok r →
      ∃ l, executeAll fiftyShares (addressOf yieldAccount) (balancesOf (spendShares 100).balances)
        r.withdrawals = some l) ∧
    ¬ SpendsFromYield id fiftyShares (spendShares 100) := by
  obtain ⟨r, hr, hwithdrawals, hcalls⟩ := spendShares_run spendSharesOutcome_eq.2
  refine ⟨fun r' hr' => ?_, fun h => ?_⟩
  · obtain rfl := Except.ok.inj (hr.symm.trans hr')
    exact hwithdrawals
  · obtain ⟨l, hl⟩ := h.solvent r hr
    rw [show (spendShares 100).account = yieldAccount from rfl] at hl
    rw [hl] at hcalls
    cases hcalls

end Bufi.Grant
