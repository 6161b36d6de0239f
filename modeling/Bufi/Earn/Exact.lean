import Bufi.Earn.Registry
import Bufi.Evm.Erc20

/-!
# Deposits are exact

`autoEarn` approves a vault and calls it, with no guard against reentrance.  The tokens
and the shares are a ledger here, and what the vault does is a tree: operations of
accounts other than the depositing one, and calls that come back to `autoEarn`, each
with a tree of its own.  A vault reacts to what it sees; a tree is what it did.  The set
of vaults of the account stays as it is meanwhile: only the account itself adopts another.

A pull lowers the balance and the allowance by one amount, everything else does not
lower the balance; so the balance falls by no more than the allowance does, until a call
inside replaces the allowance (`Kept`).  A call that succeeds has seen the balance fall by
the whole approval, and leaves no allowance (`earn_kept`).  Hence the allowance is used up
after every nest of calls.  An approval of the largest value is the exception: the ledger
never uses it up.
-/

namespace Bufi.Earn

open Bufi.Evm Bufi.Evm.Erc20

abbrev Tokens : Type := Ledger Address Address

/-- What happens while a vault is called; `asset` is what it answers in a call inside. -/
inductive Behaviour
  | done
  | revert
  | op (o : Op Address Address) (rest : Behaviour)
  | autoEarn (sender token : Address) (amountToSave : ℕ) (asset : Except EarnError Address)
    (inner rest : Behaviour)

/-- Tokens and shares on a ledger; `deposit` is what a call to a vault does. -/
def around (asset : Except EarnError Address) (deposit : Tokens → Except EarnError Tokens) :
    Around Tokens where
  asset _ _ := asset
  balanceOf l token holder := .ok (l.balance token holder)
  executeFromPluginExternal l caller target call :=
    match call with
    | .approve spender amount => .ok (l.setAllowance target caller spender amount)
    | .deposit _ _ => deposit l

/-- A call that fails leaves the ledger as it was. -/
def afterCall (l : Tokens) : Except EarnError Tokens → Tokens
  | .ok l' => l'
  | .error _ => l

section

variable {W : Type} (K : Keccak W) [DecidableEq W]
  (s : State W) (chainId : Uint256) (account : Address)

/-- `account.autoEarn` called by `sender`: the validation of the module, then its function. -/
def earn (sender token : Address) (amountToSave : ℕ) (asset : Except EarnError Address)
    (deposit : Tokens → Except EarnError Tokens) (l : Tokens) : Except EarnError Tokens := do
  runtimeValidationFunction s 0 sender
  autoEarn K (around asset deposit) s chainId account token amountToSave l

def Behaviour.run : Behaviour → Tokens → Except EarnError Tokens
  | .done, l => .ok l
  | .revert, _ => .error .reverted
  | .op o rest, l => orRevert (o.apply l) .reverted >>= rest.run
  | .autoEarn sender token amountToSave asset inner rest, l =>
    rest.run (afterCall l (earn K s chainId account sender token amountToSave asset inner.run l))

/-- The vault of a token in the set of the account. -/
def vaultOf (token : Address) : Address := s.config (s.accountConfig account) chainId token

/-- Nobody acts for the account, and its tokens are only pulled by their vault. -/
def OpAllowed (o : Op Address Address) : Prop :=
  o.actor ≠ some account ∧
    match o with
    | .transferFrom token spender owner _ _ =>
      owner = account → spender = vaultOf s chainId account token
    | _ => True

instance (o : Op Address Address) : Decidable (OpAllowed s chainId account o) := by
  unfold OpAllowed
  cases o <;> infer_instance

def Behaviour.Allowed : Behaviour → Prop
  | .done => True
  | .revert => True
  | .op o rest => OpAllowed s chainId account o ∧ rest.Allowed
  | .autoEarn _ _ _ _ inner rest => inner.Allowed ∧ rest.Allowed

instance decidableAllowed : ∀ b : Behaviour, Decidable (b.Allowed s chainId account)
  | .done => .isTrue trivial
  | .revert => .isTrue trivial
  | .op o rest =>
    have := decidableAllowed rest
    inferInstanceAs (Decidable (OpAllowed s chainId account o ∧ rest.Allowed s chainId account))
  | .autoEarn _ _ _ _ inner rest =>
    have := decidableAllowed inner
    have := decidableAllowed rest
    inferInstanceAs (Decidable (inner.Allowed s chainId account ∧ rest.Allowed s chainId account))

end

/-- No call inside approves the largest value of the token. -/
def Behaviour.Limited (t : Address) : Behaviour → Prop
  | .done => True
  | .revert => True
  | .op _ rest => rest.Limited t
  | .autoEarn _ token amountToSave _ inner rest =>
    (token = t → amountToSave < maxAllowance) ∧ inner.Limited t ∧ rest.Limited t

/-! ### One call -/

section

variable {W : Type} {K : Keccak W} [DecidableEq W]
  {s : State W} {chainId : Uint256} {account : Address}

/-- What a call that succeeds has approved, called and measured. -/
theorem earn_eq_ok {sender token : Address} {amountToSave : ℕ}
    {asset : Except EarnError Address} {deposit : Tokens → Except EarnError Tokens} {l l' : Tokens}
    (h : earn K s chainId account sender token amountToSave asset deposit l = .ok l') :
    (s.authorizedRelayers sender = true ∨ sender = s.owner) ∧
    resolveVault K s chainId account token = .ok (vaultOf s chainId account token) ∧
    deposit (l.setAllowance token account (vaultOf s chainId account token) amountToSave)
      = .ok l' ∧
    l.balance (vaultOf s chainId account token) account
      < l'.balance (vaultOf s chainId account token) account ∧
    l'.balance token account + amountToSave = l.balance token account := by
  obtain ⟨_, hvalid, h⟩ := bind_eq_ok.mp h
  obtain ⟨_, -, hrelayer⟩ := bind_eq_ok.mp hvalid
  obtain ⟨vault, hvault, h⟩ := bind_eq_ok.mp h
  have hv : vault = vaultOf s chainId account token := by
    obtain ⟨_, -, hr⟩ := bind_eq_ok.mp hvault
    obtain ⟨_, -, hr⟩ := bind_eq_ok.mp hr
    exact pure_eq_ok.mp hr
  subst hv
  obtain ⟨_, -, h⟩ := bind_eq_ok.mp h
  obtain ⟨_, -, h⟩ := bind_eq_ok.mp h
  simp only [around, ok_bind] at h
  obtain ⟨x, hdeposit, h⟩ := bind_eq_ok.mp h
  obtain ⟨minted, hminted, h⟩ := bind_eq_ok.mp h
  obtain ⟨_, hne, h⟩ := bind_eq_ok.mp h
  obtain ⟨spent, hspent, h⟩ := bind_eq_ok.mp h
  obtain ⟨_, heq, h⟩ := bind_eq_ok.mp h
  obtain rfl := pure_eq_ok.mp h
  rw [orRevert_eq_ok, checkedSub] at hminted hspent
  obtain ⟨hshares, hminted⟩ := Option.ite_none_right_eq_some.mp hminted
  obtain ⟨htokens, hspent⟩ := Option.ite_none_right_eq_some.mp hspent
  have hminted := Option.some.inj hminted
  have hspent := Option.some.inj hspent
  have hmore := require_eq_ok.mp hne
  have hexact := require_eq_ok.mp heq
  exact ⟨require_eq_ok.mp hrelayer, hvault, hdeposit, by omega, by omega⟩

end

/-! ### Nests of calls -/

section

variable {W : Type} {K : Keccak W} [DecidableEq W]
  {s : State W} {chainId : Uint256} {account : Address}

/-- A call uses up its approval and touches no other, if what the vault does is kept. -/
theorem earn_kept {sender token t : Address} {amountToSave : ℕ}
    {asset : Except EarnError Address} {deposit : Tokens → Except EarnError Tokens} {l l' : Tokens}
    (h : earn K s chainId account sender token amountToSave asset deposit l = .ok l')
    (hlimit : token = t → amountToSave < maxAllowance)
    (hdeposit : ∀ {m m'}, deposit m = .ok m' →
      Kept t account (vaultOf s chainId account t) m m') :
    Kept t account (vaultOf s chainId account t) l l' ∧
      (token = t → l'.allowance t account (vaultOf s chainId account t) = 0) := by
  obtain ⟨-, -, hcall, -, hexact⟩ := earn_eq_ok h
  have hkept := hdeposit hcall
  by_cases ht : token = t
  · subst ht
    have hzero : l'.allowance token account (vaultOf s chainId account token) = 0 := by
      have hset : (l.setAllowance token account (vaultOf s chainId account token)
          amountToSave).allowance token account (vaultOf s chainId account token)
            = amountToSave := by
        simp only [Ledger.setAllowance, and_self, if_true]
      have hle := hkept.balance_le (by rw [hset]; exact hlimit rfl)
      rw [hset, setAllowance_balance] at hle
      omega
    refine ⟨⟨?_, fun _ => .inl hzero⟩, fun _ => hzero⟩
    rw [hzero]
    exact Nat.zero_le _
  · have hsame : (l.setAllowance token account (vaultOf s chainId account token)
        amountToSave).allowance t account (vaultOf s chainId account t)
          = l.allowance t account (vaultOf s chainId account t) :=
      setAllowance_of_ne (fun hk => ht hk.1.symm)
    refine ⟨⟨hsame ▸ hkept.allowance_le, ?_⟩, fun heq => absurd heq ht⟩
    have hle := hkept.balance_le
    rwa [hsame, setAllowance_balance] at hle

/-- **Whatever the vault does is kept.** -/
theorem Behaviour.run_kept {b : Behaviour} {t : Address} (hb : b.Allowed s chainId account)
    (hlimit : b.Limited t) {l l' : Tokens} (h : b.run K s chainId account l = .ok l') :
    Kept t account (vaultOf s chainId account t) l l' := by
  induction b generalizing l l' with
  | done =>
    cases h
    exact .refl
  | revert => cases h
  | op o rest ih =>
    obtain ⟨m, hop, hrest⟩ := bind_eq_ok.mp h
    refine .trans (.of_apply (orRevert_eq_ok.mp hop) hb.1.1 ?_) (ih hb.2 hlimit hrest)
    rintro spender recipient n rfl
    exact hb.1.2 rfl
  | autoEarn sender token amountToSave asset inner rest ihinner ihrest =>
    refine .trans ?_ (ihrest hb.2 hlimit.2.2 h)
    cases hcall : earn K s chainId account sender token amountToSave asset
      (inner.run K s chainId account) l with
    | error e => exact .refl
    | ok m => exact (earn_kept hcall hlimit.1 (ihinner hb.1 hlimit.2.1)).1

/-- Nobody else gains an allowance from the account. -/
theorem Behaviour.run_allowance_le {b : Behaviour} (hb : b.Allowed s chainId account)
    {t spender : Address} (hne : spender ≠ vaultOf s chainId account t) {l l' : Tokens}
    (h : b.run K s chainId account l = .ok l') :
    l'.allowance t account spender ≤ l.allowance t account spender := by
  induction b generalizing l l' with
  | done =>
    cases h
    exact le_rfl
  | revert => cases h
  | op o rest ih =>
    obtain ⟨m, hop, hrest⟩ := bind_eq_ok.mp h
    exact (ih hb.2 hrest).trans
      (apply_allowance_le (orRevert_eq_ok.mp hop) (ne_approve hb.1.1))
  | autoEarn sender token amountToSave asset inner rest ihinner ihrest =>
    refine (ihrest hb.2 h).trans ?_
    cases hcall : earn K s chainId account sender token amountToSave asset
      (inner.run K s chainId account) l with
    | error e => exact le_rfl
    | ok m =>
      refine (ihinner hb.1 (earn_eq_ok hcall).2.2.1).trans (le_of_eq ?_)
      refine setAllowance_of_ne ?_
      rintro ⟨rfl, -, rfl⟩
      exact hne rfl

end

/-! ### The outermost call -/

section

variable {W : Type} (K : Keccak W) [DecidableEq W]
  (s : State W) (chainId : Uint256) (account : Address)

/-- The vault took the amount, gave shares, and nobody is left with more to take. -/
structure Exact (token : Address) (amountToSave : ℕ) (b : Behaviour) (l l' : Tokens) : Prop where
  spent : l'.balance token account + amountToSave = l.balance token account
  minted : l.balance (vaultOf s chainId account token) account
    < l'.balance (vaultOf s chainId account token) account
  used_up : amountToSave < maxAllowance → b.Limited token →
    l'.allowance token account (vaultOf s chainId account token) = 0
  others : ∀ t spender, ¬(t = token ∧ spender = vaultOf s chainId account token) →
    (spender = vaultOf s chainId account t → b.Limited t) →
      l'.allowance t account spender ≤ l.allowance t account spender

/-- **A deposit is exact or does not happen**, however the vault nests its calls. -/
theorem deposit_exact (sender token : Address) (amountToSave : ℕ)
    (asset : Except EarnError Address) (b : Behaviour) (hb : b.Allowed s chainId account)
    (l : Tokens) :
    let result := earn K s chainId account sender token amountToSave asset
      (b.run K s chainId account) l
    (∃ l', result = .ok l' ∧ afterCall l result = l' ∧
      Exact s chainId account token amountToSave b l l') ∨
    (∃ e, result = .error e ∧ afterCall l result = l) := by
  intro result
  cases hcall : result with
  | error e => exact .inr ⟨e, rfl, rfl⟩
  | ok l' =>
    obtain ⟨-, -, hrun, hminted, hspent⟩ := earn_eq_ok hcall
    refine .inl ⟨l', rfl, rfl, hspent, hminted, fun hamount hlimit => ?_,
      fun t spender hne hlimit => ?_⟩
    · exact (earn_kept hcall (fun _ => hamount) (Behaviour.run_kept hb hlimit)).2 rfl
    · by_cases hv : spender = vaultOf s chainId account t
      · have ht : token ≠ t := by
          rintro rfl
          exact hne ⟨rfl, hv⟩
        rw [hv]
        exact (earn_kept hcall (fun heq => absurd heq ht)
          (Behaviour.run_kept hb (hlimit hv))).1.allowance_le
      · refine (Behaviour.run_allowance_le hb hv hrun).trans (le_of_eq ?_)
        exact setAllowance_of_ne (fun hk => hne ⟨hk.1, hk.2.2⟩)

end

/-- The account has adopted the first of the two sets. -/
def adopted : State Term :=
  afterAttempts (earnStep Keccak.symbolic) (State.initial Keccak.symbolic 11 10) vaultCalls

/-- The vault pulls 20 of 60, has 40 more deposited from inside, and meanwhile 10 of another
token; a call for all that is left fails. -/
def nestedDeposits : Behaviour :=
  .op (.transferFrom 5 7 3 7 20)
    (.autoEarn 11 5 40 (.ok 5)
      (.op (.transferFrom 5 7 3 7 40) (.op (.mint 7 3 4)
        (.autoEarn 11 6 10 (.ok 6) (.op (.transferFrom 6 8 3 8 10) (.op (.mint 8 3 1) .done)) .done)))
      (.autoEarn 11 5 40 (.ok 5) (.op (.transferFrom 5 7 3 7 40) .done) .done))

def hundredEach : Tokens := ⟨fun _ a => if a = 3 then 100 else 0, fun _ _ _ => 0⟩

theorem deposit_exact_nested :
    ∃ l', earn Keccak.symbolic adopted 1 3 11 5 60 (.ok 5)
        (nestedDeposits.run Keccak.symbolic adopted 1 3) hundredEach = .ok l' ∧
      Exact adopted 1 3 5 60 nestedDeposits hundredEach l' ∧ l'.balance 5 3 = 40 ∧
      l'.balance 6 3 = 90 ∧ l'.balance 7 3 = 104 := by
  have hfacts : nestedDeposits.Allowed adopted 1 3 ∧
      (earn Keccak.symbolic adopted 1 3 11 5 60 (.ok 5)
        (nestedDeposits.run Keccak.symbolic adopted 1 3) hundredEach).map
          (fun l' => (l'.balance 5 3, l'.balance 6 3, l'.balance 7 3)) = .ok (40, 90, 104) := by
    decide +kernel
  obtain ⟨l', hok, hbal⟩ := map_eq_ok.mp hfacts.2
  have hexact := deposit_exact Keccak.symbolic adopted 1 3 11 5 60 (.ok 5) nestedDeposits
    hfacts.1 hundredEach
  rcases hexact with ⟨l'', hok', -, hexact⟩ | ⟨e, herror, -⟩
  · obtain rfl := Except.ok.inj (hok.symm.trans hok')
    simp only [Prod.mk.injEq] at hbal
    exact ⟨l', hok, hexact, hbal.1, hbal.2.1, hbal.2.2⟩
  · rw [hok] at herror
    cases herror

/-- The account deposits the largest value, all it has; the vault pulls it in one piece. -/
theorem not_used_up_max :
    let pull : Behaviour := .op (.transferFrom 5 7 3 7 maxAllowance) (.op (.mint 7 3 1) .done)
    ∃ l', pull.Allowed adopted 1 3 ∧
      earn Keccak.symbolic adopted 1 3 11 5 maxAllowance (.ok 5)
        (pull.run Keccak.symbolic adopted 1 3)
        ⟨fun t a => if t = 5 ∧ a = 3 then maxAllowance else 0, fun _ _ _ => 0⟩ = .ok l' ∧
      l'.allowance 5 3 7 ≠ 0 := by
  intro pull
  have hfacts : pull.Allowed adopted 1 3 ∧
      (earn Keccak.symbolic adopted 1 3 11 5 maxAllowance (.ok 5)
        (pull.run Keccak.symbolic adopted 1 3)
        ⟨fun t a => if t = 5 ∧ a = 3 then maxAllowance else 0, fun _ _ _ => 0⟩).map
          (fun l' => l'.allowance 5 3 7) = .ok maxAllowance := by
    decide +kernel
  obtain ⟨l', hok, hallow⟩ := map_eq_ok.mp hfacts.2
  refine ⟨l', hfacts.1, hok, ?_⟩
  rw [hallow, maxAllowance]
  omega

end Bufi.Earn
