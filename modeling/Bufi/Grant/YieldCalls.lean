import Bufi.Grant.SpendFromYield
import Bufi.Js.Collections

/-!
# The calls that spend from yield

`buildSpendFromYieldCalls.ts`: the payments are added up per token, what the liquid
balance does not cover is withdrawn from the vault of the token, and then the payments
are made.  A token is a text, and two texts that differ in the case of their letters are
one token.

The loops succeed under conditions on their input (`exists_needed`, `exists_source`), and
what they return are encoded calls (`Pays`, `Withdraws`) of known arguments.
-/

namespace Bufi.Grant

open Bufi.Evm Bufi.Js Bufi.Session

structure YieldPayment where
  token : String
  to' : String
  amount : ℤ
  deriving DecidableEq

structure TokenBalance where
  token : String
  balance : ℤ
  deriving DecidableEq

structure VaultConfig where
  token : String
  vault : String
  deriving DecidableEq

structure BuildSpendFromYieldCallsParameters where
  account : String
  payments : List YieldPayment
  balances : List TokenBalance
  vaults : List VaultConfig
  deriving DecidableEq

structure YieldCall where
  target : String
  value : ℤ
  data : Bytes
  deriving DecidableEq

structure YieldSource where
  token : String
  vault : String
  amount : ℤ
  deriving DecidableEq

structure SpendFromYieldCalls where
  withdrawals : List YieldCall
  transfers : List YieldCall
  calls : List YieldCall
  sourced : List YieldSource
  deriving DecidableEq

/-- What `buildSpendFromYieldCalls` throws; the last is viem's. -/
inductive YieldError
  | negativeAmount (token : String)
  | noVault (shortfall : ℤ) (token : String)
  | encoding (e : GrantError)
  deriving DecidableEq

def YieldError.text : YieldError → Option String
  | negativeAmount token =>
    some ("buildSpendFromYieldCalls: negative amount for token " ++ token)
  | noVault shortfall token =>
    some ("buildSpendFromYieldCalls: short " ++ toString shortfall ++ " of " ++ token
      ++ " and no adopted vault to source it from")
  | encoding _ => none

/-- A token, or a vault: the text of its address in lower case. -/
def Token : Type := List Char
deriving DecidableEq

def normalize (address : String) : Token := lowerCase address

/-! ### The builder -/

def liquidOf (balances : List TokenBalance) : List (Token × ℤ) :=
  balances.foldl (fun m b => mapSet m (normalize b.token) b.balance) []

def vaultOf (vaults : List VaultConfig) : List (Token × String) :=
  vaults.foldl (fun m v => mapSet m (normalize v.token) v.vault) []

/-- A token as it was first written, and what is needed of it. -/
structure Need where
  token : String
  amount : ℤ
  deriving DecidableEq

/-- One turn of the loop over the payments. -/
def addPayment (needed : List (Token × Need)) (payment : YieldPayment) :
    Except YieldError (List (Token × Need)) := do
  require (¬ payment.amount < 0) (.negativeAmount payment.token)
  let key := normalize payment.token
  match needed.lookup key with
  | none => pure (mapSet needed key ⟨payment.token, payment.amount⟩)
  | some entry => pure (mapSet needed key { entry with amount := entry.amount + payment.amount })

def encodeTransfer (checksumAddress : String → String) (to' : String) (amount : ℤ) :
    Except YieldError Bytes := do
  let a ← (encodeAddress checksumAddress to').mapError .encoding
  let n ← (encodeBigInt 256 amount).mapError .encoding
  pure (encodeCall ERC20_TRANSFER_SELECTOR [a.toNat, n.toNat])

def encodeWithdraw (checksumAddress : String → String) (assets : ℤ) (receiver owner : String) :
    Except YieldError Bytes := do
  let n ← (encodeBigInt 256 assets).mapError .encoding
  let r ← (encodeAddress checksumAddress receiver).mapError .encoding
  let o ← (encodeAddress checksumAddress owner).mapError .encoding
  pure (encodeCall ERC4626_WITHDRAW_SELECTOR [n.toNat, r.toNat, o.toNat])

/-- What the liquid balance does not cover of a token. -/
def shortfall (liquid : List (Token × ℤ)) (e : Token × Need) : ℤ :=
  e.2.amount - (liquid.lookup e.1).getD 0

section

variable (checksumAddress : String → String)

/-- The loop over what is needed. -/
def source (account : String) (liquid : List (Token × ℤ)) (vaults : List (Token × String)) :
    List (Token × Need) → Except YieldError (List YieldCall × List YieldSource)
  | [] => pure ([], [])
  | e :: needed =>
    if shortfall liquid e ≤ 0 then source account liquid vaults needed
    else do
      let vault ← orRevert (vaults.lookup e.1) (.noVault (shortfall liquid e) e.2.token)
      let data ← encodeWithdraw checksumAddress (shortfall liquid e) account account
      let (withdrawals, sourced) ← source account liquid vaults needed
      pure (⟨vault, 0, data⟩ :: withdrawals, ⟨e.2.token, vault, shortfall liquid e⟩ :: sourced)

def payCall (payment : YieldPayment) : Except YieldError YieldCall := do
  let data ← encodeTransfer checksumAddress payment.to' payment.amount
  pure ⟨payment.token, 0, data⟩

def buildSpendFromYieldCalls (p : BuildSpendFromYieldCallsParameters) :
    Except YieldError SpendFromYieldCalls := do
  let needed ← p.payments.foldlM addPayment []
  let (withdrawals, sourced) ←
    source checksumAddress p.account (liquidOf p.balances) (vaultOf p.vaults) needed
  let transfers ← p.payments.mapM (payCall checksumAddress)
  pure ⟨withdrawals, transfers, withdrawals ++ transfers, sourced⟩

end

/-! ### What is needed -/

/-- What a list of payments pays in a token. -/
def paid (payments : List YieldPayment) (key : Token) : ℤ :=
  ((payments.filter (fun x => normalize x.token = key)).map YieldPayment.amount).sum

theorem paid_concat (payments : List YieldPayment) (x : YieldPayment) (key : Token) :
    paid (payments ++ [x]) key
      = paid payments key + if normalize x.token = key then x.amount else 0 := by
  rw [paid, List.filter_append, List.map_append, List.sum_append, paid]
  by_cases h : normalize x.token = key
  · simp [h]
  · simp [h]

theorem paid_of_forall_ne {payments : List YieldPayment} {key : Token}
    (h : ∀ x ∈ payments, normalize x.token ≠ key) : paid payments key = 0 := by
  have hnil : payments.filter (fun x => normalize x.token = key) = [] := by
    simpa [List.filter_eq_nil_iff] using h
  rw [paid, hnil]
  rfl

/-- What is needed after some of the payments. -/
structure Needs (payments : List YieldPayment) (needed : List (Token × Need)) : Prop where
  nodup : (needed.map Prod.fst).Nodup
  keys : ∀ key, key ∈ needed.map Prod.fst ↔ ∃ x ∈ payments, normalize x.token = key
  entry : ∀ key need, needed.lookup key = some need →
    normalize need.token = key ∧ need.amount = paid payments key

theorem Needs.nil : Needs [] [] where
  nodup := .nil
  keys key := by simp
  entry key need h := by cases h

theorem Needs.set {payments : List YieldPayment} {needed : List (Token × Need)}
    (h : Needs payments needed) {x : YieldPayment} {need : Need}
    (htoken : normalize need.token = normalize x.token)
    (hamount : need.amount = paid payments (normalize x.token) + x.amount) :
    Needs (payments ++ [x]) (mapSet needed (normalize x.token) need) where
  nodup := nodup_mapSet h.nodup _ _
  keys key := by
    have hkeys := h.keys
    rw [map_fst_mapSet]
    split_ifs with hk
    · rw [hkeys]
      constructor
      · rintro ⟨y, hy, hkey⟩
        exact ⟨y, List.mem_append_left _ hy, hkey⟩
      · rintro ⟨y, hy, rfl⟩
        rcases List.mem_append.mp hy with hy | hy
        · exact ⟨y, hy, rfl⟩
        · obtain ⟨z, hz, hkey⟩ := (hkeys _).mp hk
          rw [List.mem_singleton.mp hy]
          exact ⟨z, hz, hkey⟩
    · rw [List.mem_append, hkeys, List.mem_singleton]
      simp only [List.mem_append, List.mem_singleton, or_and_right, exists_or, exists_eq_left]
      exact or_congr_right eq_comm
  entry key need' hlookup := by
    rw [lookup_mapSet] at hlookup
    rw [paid_concat]
    by_cases hk : key = normalize x.token
    · rw [if_pos hk] at hlookup
      obtain rfl := Option.some.inj hlookup
      rw [if_pos hk.symm, hk]
      exact ⟨htoken, hamount⟩
    · rw [if_neg hk] at hlookup
      rw [if_neg (Ne.symm hk), add_zero]
      exact h.entry key need' hlookup

theorem addPayment_eq_ok {payments : List YieldPayment} {needed needed' : List (Token × Need)}
    {x : YieldPayment} (h : Needs payments needed) (hx : addPayment needed x = .ok needed') :
    0 ≤ x.amount ∧ Needs (payments ++ [x]) needed' := by
  obtain ⟨_, hnonneg, hx⟩ := bind_eq_ok.mp hx
  refine ⟨not_lt.mp (require_eq_ok.mp hnonneg), ?_⟩
  cases hlookup : needed.lookup (normalize x.token) with
  | none =>
    simp only [hlookup] at hx
    obtain rfl := pure_eq_ok.mp hx
    refine h.set rfl ?_
    have hnot : normalize x.token ∉ needed.map Prod.fst := by
      intro hmem
      obtain ⟨e, he, hkey⟩ := List.mem_map.mp hmem
      exact bne_iff_ne.mp (List.lookup_eq_none_iff.mp hlookup e he) hkey.symm
    rw [h.keys] at hnot
    rw [paid_of_forall_ne (fun y hy hkey => hnot ⟨y, hy, hkey⟩), zero_add]
  | some entry =>
    simp only [hlookup] at hx
    obtain rfl := pure_eq_ok.mp hx
    obtain ⟨htoken, hamount⟩ := h.entry _ entry hlookup
    exact h.set htoken (congrArg (· + x.amount) hamount)

theorem exists_addPayment (needed : List (Token × Need)) {x : YieldPayment}
    (hx : 0 ≤ x.amount) : ∃ needed', addPayment needed x = .ok needed' := by
  rw [addPayment, require_of (not_lt.mpr hx), ok_bind]
  simp only
  split
  · exact ⟨_, rfl⟩
  · exact ⟨_, rfl⟩

/-- **The loop adds up the payments of each token.** -/
theorem needs_of_foldlM {done payments : List YieldPayment} {needed needed' : List (Token × Need)}
    (h : Needs done needed) (hfold : payments.foldlM addPayment needed = .ok needed') :
    (∀ x ∈ payments, 0 ≤ x.amount) ∧ Needs (done ++ payments) needed' := by
  induction payments generalizing done needed with
  | nil =>
    rw [foldlM_nil_eq_ok.mp hfold, List.append_nil]
    exact ⟨fun x hx => absurd hx List.not_mem_nil, h⟩
  | cons x payments ih =>
    obtain ⟨m, hx, hrest⟩ := foldlM_cons_eq_ok.mp hfold
    obtain ⟨hnonneg, hm⟩ := addPayment_eq_ok h hx
    obtain ⟨hall, hneeds⟩ := ih hm hrest
    rw [List.append_assoc, List.singleton_append] at hneeds
    exact ⟨List.forall_mem_cons.mpr ⟨hnonneg, hall⟩, hneeds⟩

theorem exists_needed {payments : List YieldPayment} (h : ∀ x ∈ payments, 0 ≤ x.amount)
    (needed : List (Token × Need)) : ∃ needed', payments.foldlM addPayment needed = .ok needed' := by
  induction payments generalizing needed with
  | nil => exact ⟨needed, rfl⟩
  | cons x payments ih =>
    obtain ⟨hx, hrest⟩ := List.forall_mem_cons.mp h
    obtain ⟨m, hm⟩ := exists_addPayment needed hx
    obtain ⟨needed', hneeded⟩ := ih hrest m
    exact ⟨needed', foldlM_cons_eq_ok.mpr ⟨m, hm, hneeded⟩⟩

/-! ### Encoded calls -/

section

variable {checksumAddress : String → String}

theorem exists_encodeAddress {s : String} :
    (∃ a, encodeAddress checksumAddress s = .ok a) ↔ isAddress checksumAddress s = true := by
  simp only [encodeAddress, bind_eq_ok, require_eq_ok, exists_const, orRevert_eq_ok]
  constructor
  · rintro ⟨a, haddress, -⟩
    exact haddress
  · intro haddress
    have hsome := haddress
    rw [isAddress, Bool.and_eq_true] at hsome
    obtain ⟨a, ha⟩ := Option.isSome_iff_exists.mp hsome.1
    exact ⟨a, haddress, ha⟩

theorem exists_encodeBigInt {n : ℕ} {x : ℤ} :
    (∃ w, encodeBigInt n x = .ok w) ↔ 0 ≤ x ∧ x < 2 ^ n := by
  simp only [encodeBigInt, bind_eq_ok, require_eq_ok, exists_const, pure_eq_ok]
  constructor
  · rintro ⟨_, h, _⟩
    exact h
  · intro h
    exact ⟨_, h, rfl⟩

theorem encodeTransfer_eq_ok {to' : String} {amount : ℤ} {data : Bytes}
    (h : encodeTransfer checksumAddress to' amount = .ok data) :
    ∃ (a : Address) (n : Uint256), addressOf to' = some a ∧ amount = n.toNat
      ∧ selectorOf data = ERC20_TRANSFER_SELECTOR ∧ tokenArguments data = some (a, n) := by
  simp only [encodeTransfer, bind_eq_ok, mapError_eq_ok, pure_eq_ok] at h
  obtain ⟨a, ha, n, hn, rfl⟩ := h
  refine ⟨a, n, encodeAddress_eq_ok ha, encodeBigInt_eq_ok hn, selectorOf_encodeCall _ _, ?_⟩
  have hdrop : (encodeCall ERC20_TRANSFER_SELECTOR [a.toNat, n.toNat]).drop 4
      = beBytes 32 a.toNat ++ (beBytes 32 n.toNat ++ []) := by
    rw [encodeCall, List.drop_left' (beBytes_length 4 _)]
    rfl
  have hamount : Abi.word (beBytes 32 a.toNat ++ (beBytes 32 n.toNat ++ [])) 32 = some n :=
    (Abi.word_skip (p := 0)).trans (Abi.word_front n)
  simp only [tokenArguments, hdrop, Abi.address_front, hamount]
  rfl

theorem exists_encodeTransfer {to' : String} {amount : ℤ} :
    (∃ data, encodeTransfer checksumAddress to' amount = .ok data)
      ↔ isAddress checksumAddress to' = true ∧ 0 ≤ amount ∧ amount < 2 ^ 256 := by
  rw [← exists_encodeAddress, ← exists_encodeBigInt]
  simp only [encodeTransfer, bind_eq_ok, mapError_eq_ok, pure_eq_ok]
  constructor
  · rintro ⟨_, a, ha, n, hn, -⟩
    exact ⟨⟨a, ha⟩, ⟨n, hn⟩⟩
  · rintro ⟨⟨a, ha⟩, ⟨n, hn⟩⟩
    exact ⟨_, a, ha, n, hn, rfl⟩

theorem encodeWithdraw_eq_ok {account : String} {assets : ℤ} {data : Bytes}
    (h : encodeWithdraw checksumAddress assets account account = .ok data) :
    ∃ (a : Address) (n : Uint256), addressOf account = some a ∧ assets = n.toNat
      ∧ selectorOf data = ERC4626_WITHDRAW_SELECTOR ∧ vaultArguments data = some (n, a, a) := by
  simp only [encodeWithdraw, bind_eq_ok, mapError_eq_ok, pure_eq_ok] at h
  obtain ⟨n, hn, a, ha, o, ho, rfl⟩ := h
  obtain rfl := Except.ok.inj (ha.symm.trans ho)
  refine ⟨a, n, encodeAddress_eq_ok ha, encodeBigInt_eq_ok hn, selectorOf_encodeCall _ _, ?_⟩
  have hdrop : (encodeCall ERC4626_WITHDRAW_SELECTOR [n.toNat, a.toNat, a.toNat]).drop 4
      = beBytes 32 n.toNat ++ (beBytes 32 a.toNat ++ (beBytes 32 a.toNat ++ [])) := by
    rw [encodeCall, List.drop_left' (beBytes_length 4 _)]
    rfl
  have howner : Abi.address (beBytes 32 a.toNat ++ []) 0 = some a := Abi.address_front a
  have hreceiver : Abi.address (beBytes 32 a.toNat ++ (beBytes 32 a.toNat ++ [])) 0 = some a :=
    Abi.address_front a
  have hword : Abi.address
      (beBytes 32 n.toNat ++ (beBytes 32 a.toNat ++ (beBytes 32 a.toNat ++ []))) 32 = some a :=
    (Abi.uint_skip (p := 0)).trans hreceiver
  have hword' : Abi.address
      (beBytes 32 n.toNat ++ (beBytes 32 a.toNat ++ (beBytes 32 a.toNat ++ []))) 64 = some a :=
    (Abi.uint_skip (p := 32)).trans ((Abi.uint_skip (p := 0)).trans howner)
  simp only [vaultArguments, hdrop, Abi.word_front, hword, hword']
  rfl

theorem exists_encodeWithdraw {account : String} {assets : ℤ} :
    (∃ data, encodeWithdraw checksumAddress assets account account = .ok data)
      ↔ isAddress checksumAddress account = true ∧ 0 ≤ assets ∧ assets < 2 ^ 256 := by
  rw [← exists_encodeAddress, ← exists_encodeBigInt]
  simp only [encodeWithdraw, bind_eq_ok, mapError_eq_ok, pure_eq_ok]
  constructor
  · rintro ⟨_, n, hn, a, ha, -⟩
    exact ⟨⟨a, ha⟩, ⟨n, hn⟩⟩
  · rintro ⟨⟨a, ha⟩, ⟨n, hn⟩⟩
    exact ⟨_, n, hn, a, ha, a, ha, rfl⟩

end

/-! ### What the calls are -/

/-- A call that makes a payment. -/
structure Pays (x : YieldPayment) (call : YieldCall) : Prop where
  target : call.target = x.token
  value : call.value = 0
  selector : selectorOf call.data = ERC20_TRANSFER_SELECTOR
  arguments : ∃ (a : Address) (n : Uint256), addressOf x.to' = some a ∧ x.amount = n.toNat
    ∧ tokenArguments call.data = some (a, n)

/-- A call that withdraws for the account what is listed as sourced. -/
structure Withdraws (account : String) (x : YieldSource) (call : YieldCall) : Prop where
  target : call.target = x.vault
  value : call.value = 0
  selector : selectorOf call.data = ERC4626_WITHDRAW_SELECTOR
  arguments : ∃ (a : Address) (n : Uint256), addressOf account = some a ∧ x.amount = n.toNat
    ∧ vaultArguments call.data = some (n, a, a)

/-- What is sourced for an entry, if it has a vault. -/
def sourceOf (liquid : List (Token × ℤ)) (vaults : List (Token × String)) (e : Token × Need) :
    Option YieldSource :=
  if shortfall liquid e ≤ 0 then none
  else (vaults.lookup e.1).map (fun vault => ⟨e.2.token, vault, shortfall liquid e⟩)

section

variable {checksumAddress : String → String} {account : String} {liquid : List (Token × ℤ)}
  {vaults : List (Token × String)}

theorem source_eq_ok {needed : List (Token × Need)} {r : List YieldCall × List YieldSource}
    (h : source checksumAddress account liquid vaults needed = .ok r) :
    r.2 = needed.filterMap (sourceOf liquid vaults)
      ∧ List.Forall₂ (Withdraws account) r.2 r.1 := by
  induction needed generalizing r with
  | nil =>
    rw [pure_eq_ok.mp h]
    exact ⟨rfl, .nil⟩
  | cons e needed ih =>
    rw [source] at h
    rw [List.filterMap_cons]
    by_cases hle : shortfall liquid e ≤ 0
    · rw [if_pos hle] at h
      rw [sourceOf, if_pos hle]
      exact ih h
    · rw [if_neg hle] at h
      obtain ⟨vault, hvault, h⟩ := bind_eq_ok.mp h
      obtain ⟨data, hdata, h⟩ := bind_eq_ok.mp h
      obtain ⟨rest, hrest, h⟩ := bind_eq_ok.mp h
      obtain rfl := pure_eq_ok.mp h
      obtain ⟨hsourced, hcalls⟩ := ih hrest
      obtain ⟨a, n, ha, hn, hselector, hargs⟩ := encodeWithdraw_eq_ok hdata
      rw [sourceOf, if_neg hle, orRevert_eq_ok.mp hvault]
      exact ⟨congrArg _ hsourced, .cons ⟨rfl, rfl, hselector, a, n, ha, hn, hargs⟩ hcalls⟩

theorem exists_source {needed : List (Token × Need)} :
    (∃ r, source checksumAddress account liquid vaults needed = .ok r) ↔
      ∀ e ∈ needed, 0 < shortfall liquid e → (∃ vault, vaults.lookup e.1 = some vault)
        ∧ isAddress checksumAddress account = true ∧ shortfall liquid e < 2 ^ 256 := by
  induction needed with
  | nil => exact iff_of_true ⟨_, rfl⟩ (fun e he => absurd he List.not_mem_nil)
  | cons e needed ih =>
    rw [List.forall_mem_cons, ← ih, source]
    by_cases hle : shortfall liquid e ≤ 0
    · rw [if_pos hle]
      exact (and_iff_right (fun hlt => absurd hle (not_le.mpr hlt))).symm
    · rw [if_neg hle]
      simp only [bind_eq_ok, orRevert_eq_ok, pure_eq_ok]
      have hlt := not_le.mp hle
      constructor
      · rintro ⟨_, vault, hvault, data, hdata, rest, hrest, -⟩
        obtain ⟨haccount, -, hmax⟩ := exists_encodeWithdraw.mp ⟨data, hdata⟩
        exact ⟨fun _ => ⟨⟨vault, hvault⟩, haccount, hmax⟩, rest, hrest⟩
      · rintro ⟨hfirst, rest, hrest⟩
        obtain ⟨⟨vault, hvault⟩, haccount, hmax⟩ := hfirst hlt
        obtain ⟨data, hdata⟩ := exists_encodeWithdraw.mpr ⟨haccount, hlt.le, hmax⟩
        exact ⟨_, vault, hvault, data, hdata, rest, hrest, rfl⟩

theorem payCall_eq_ok {x : YieldPayment} {call : YieldCall}
    (h : payCall checksumAddress x = .ok call) : Pays x call := by
  obtain ⟨data, hdata, h⟩ := bind_eq_ok.mp h
  obtain rfl := pure_eq_ok.mp h
  obtain ⟨a, n, ha, hn, hselector, hargs⟩ := encodeTransfer_eq_ok hdata
  exact ⟨rfl, rfl, hselector, a, n, ha, hn, hargs⟩

theorem exists_payCall {x : YieldPayment} :
    (∃ call, payCall checksumAddress x = .ok call)
      ↔ isAddress checksumAddress x.to' = true ∧ 0 ≤ x.amount ∧ x.amount < 2 ^ 256 := by
  rw [← exists_encodeTransfer]
  simp only [payCall, bind_eq_ok, pure_eq_ok]
  constructor
  · rintro ⟨_, data, hdata, -⟩
    exact ⟨data, hdata⟩
  · rintro ⟨data, hdata⟩
    exact ⟨_, data, hdata, rfl⟩

end

end Bufi.Grant
