import Bufi.Evm.Checks
import Bufi.Gateway.Policy
import Mathlib.Data.List.Nodup

/-!
# The redeem conduit

`TreasuryRedeemConduit.sol`: a treasury signs a redemption of vault shares, and anybody
may have it carried out.  The treasury, the vault and its asset are other contracts.
What they answer is a parameter (`World`), and what a vault does with a call is a list of
actions, among them calls that come back to the conduit.  A vault that catches a failed
call of its own is one that did not make it; a vault that reverts makes a call that
fails.

A redemption that is carried out leaves a `Receipt`: what was asked for, the call that
the vault got, and the states in which the signature was checked, the vault was called
and the vault returned.  The guard against reentrance keeps the nonces and the receipts
fixed while the vault runs (`actAll_frozen`), so a transaction leaves at most one receipt
(`act_spec`), for a nonce that was not used before.
-/

namespace Bufi.RedeemConduit

open Bufi.Evm Bufi.Gateway

/-- The arguments a treasury signs. -/
structure Redemption where
  treasury : Address
  vault : Address
  shares : Uint256
  minAssets : Uint256
  deadline : Uint256
  nonce : Uint256
  deriving DecidableEq

/-- The conduit, and the state `foreign` of all other contracts. -/
structure Chain (F : Type) where
  vaults : Address → Bool
  usedNonces : Address → Uint256 → Bool
  owner : Address
  pendingOwner : Address
  entered : Bool
  foreign : F

/-- The view functions of other contracts; `none` is a call that reverts. -/
structure World (W F : Type) where
  isValidSignature : Chain F → Address → W → Bytes → Option Bytes4
  asset : F → Address → Option Address
  balanceOf : F → Address → Address → Option Uint256

inductive Revert
  | vaultNotRegistered (vault : Address)
  | zeroShares
  | redeemExpired (deadline now : Uint256)
  | nonceUsed (nonce : Uint256)
  | invalidQuorumSignature
  | belowFloor (gained : ℕ) (minAssets : Uint256)
  | reentrantCall
  | unauthorizedAccount (account : Address)
  | callee
  | panic
  deriving DecidableEq

/-- `IERC4626(vault).redeem(shares, receiver, owner)` -/
structure VaultCall where
  vault : Address
  shares : Uint256
  receiver : Address
  owner : Address
  deriving DecidableEq

/-- A redemption that was carried out. -/
structure Receipt (F : Type) where
  redemption : Redemption
  quorumSig : Bytes
  timestamp : Uint256
  asset : Address
  call : VaultCall
  checked : Chain F
  called : Chain F
  returned : Chain F

/-- What anybody can do; `calls` is what the vault does with the call it gets. -/
inductive Action (F : Type)
  | foreign (f : F → F)
  | setVault (sender vault : Address) (allowed : Bool)
  | transferOwnership (sender newOwner : Address)
  | acceptOwnership (sender : Address)
  | renounceOwnership (sender : Address)
  | redeem (r : Redemption) (quorumSig : Bytes) (calls : VaultCall → List (Action F))

section

variable {W F : Type} (K : Keccak W) (X : World W F) (chainid timestamp : Uint256)
  (conduit : Address)

def redeemTypehash : W := K.typeHash
  "Redeem(address treasury,address vault,uint256 shares,uint256 minAssets,uint256 deadline,uint256 nonce)"

def redeemHash (r : Redemption) : W :=
  K.hashTyped (domainSeparator K (ascii "TreasuryRedeemConduit") (ascii "1") chainid conduit)
    (K.hashWords [redeemTypehash K, K.addr r.treasury, K.addr r.vault, K.word r.shares,
      K.word r.minAssets, K.word r.deadline, K.word r.nonce])

/-- `usedNonces[treasury][nonce] = true` -/
def Chain.useNonce (s : Chain F) (treasury : Address) (nonce : Uint256) : Chain F :=
  { s with usedNonces := fun t n => if t = treasury ∧ n = nonce then true else s.usedNonces t n }

/-- The shares of the treasury are burned, and the assets go to the treasury. -/
def Redemption.vaultCall (r : Redemption) : VaultCall :=
  ⟨r.vault, r.shares, r.treasury, r.treasury⟩

/-- The function `redeem`; `call` is what a call to the vault does, with the receipts it
leaves. -/
def redeem (r : Redemption) (quorumSig : Bytes)
    (call : VaultCall → Chain F → Option (Chain F × List (Receipt F))) (s : Chain F) :
    Except Revert (Chain F × List (Receipt F)) := do
  require (s.entered = false) .reentrantCall
  let checked : Chain F := { s with entered := true }
  require (checked.vaults r.vault = true) (.vaultNotRegistered r.vault)
  require (r.shares ≠ 0) .zeroShares
  require (¬ timestamp > r.deadline) (.redeemExpired r.deadline timestamp)
  require (checked.usedNonces r.treasury r.nonce = false) (.nonceUsed r.nonce)
  let digest := redeemHash K chainid conduit r
  let magic ← orRevert (X.isValidSignature checked r.treasury digest quorumSig) .callee
  require (magic = erc1271MagicValue) .invalidQuorumSignature
  let called := checked.useNonce r.treasury r.nonce
  let asset ← orRevert (X.asset called.foreign r.vault) .callee
  let before ← orRevert (X.balanceOf called.foreign asset r.treasury) .callee
  let (returned, receipts) ← orRevert (call r.vaultCall called) .callee
  let after ← orRevert (X.balanceOf returned.foreign asset r.treasury) .callee
  let gained ← orRevert (checkedSub after.toNat before.toNat) .panic
  require (¬ gained < r.minAssets.toNat) (.belowFloor gained r.minAssets)
  pure ({ returned with entered := false },
    receipts ++ [⟨r, quorumSig, timestamp, asset, r.vaultCall, checked, called, returned⟩])

/-- `onlyOwner` -/
def onlyOwner (s : Chain F) (sender : Address) : Except Revert Unit :=
  require (sender = s.owner) (.unauthorizedAccount sender)

mutual

/-- One action, and the receipts it leaves. -/
def act : Action F → Chain F → Except Revert (Chain F × List (Receipt F))
  | .foreign f, s => pure ({ s with foreign := f s.foreign }, [])
  | .setVault sender vault allowed, s => do
    onlyOwner s sender
    pure ({ s with vaults := Function.update s.vaults vault allowed }, [])
  | .transferOwnership sender newOwner, s => do
    onlyOwner s sender
    pure ({ s with pendingOwner := newOwner }, [])
  | .acceptOwnership sender, s => do
    require (sender = s.pendingOwner) (.unauthorizedAccount sender)
    pure ({ s with owner := sender, pendingOwner := 0 }, [])
  | .renounceOwnership sender, s => do
    onlyOwner s sender
    pure ({ s with owner := 0, pendingOwner := 0 }, [])
  | .redeem r quorumSig calls, s =>
    redeem K X chainid timestamp conduit r quorumSig (fun call => actAll (calls call)) s

/-- Actions one after another. -/
def actAll : List (Action F) → Chain F → Option (Chain F × List (Receipt F))
  | [], s => some (s, [])
  | a :: rest, s =>
    (act a s).toOption.bind (fun p =>
      (actAll rest p.1).map (fun q => (q.1, p.2 ++ q.2)))

end

end

/-! ### Transactions -/

/-- A transaction, with the time it runs at. -/
structure Tx (F : Type) where
  timestamp : Uint256
  action : Action F

section

variable {W F : Type} (K : Keccak W) (X : World W F) (chainid : Uint256) (conduit : Address)

/-- A transaction that reverts leaves everything as it was. -/
def runTx (tx : Tx F) (s : Chain F) : Chain F × List (Receipt F) :=
  match act K X chainid tx.timestamp conduit tx.action s with
  | .ok r => r
  | .error _ => (s, [])

/-- Transactions one after another, with the receipts of all. -/
def runTxs : List (Tx F) → Chain F → Chain F × List (Receipt F)
  | [], s => (s, [])
  | tx :: rest, s =>
    let p := runTx K X chainid conduit tx s
    let q := runTxs rest p.1
    (q.1, p.2 ++ q.2)

end

/-- The conduit after its deployment. -/
def deployed {F : Type} (owner : Address) (foreign : F) : Chain F where
  vaults _ := false
  usedNonces _ _ := false
  owner := owner
  pendingOwner := 0
  entered := false
  foreign := foreign

/-! ### One action -/

section

variable {W F : Type} {K : Keccak W} {X : World W F} {chainid timestamp : Uint256}
  {conduit : Address}

/-- **Nothing comes back into the conduit.**  While a redemption runs, no action uses a
nonce or leaves a receipt. -/
theorem act_frozen {a : Action F} {s s' : Chain F} {receipts : List (Receipt F)}
    (hs : s.entered = true)
    (h : act K X chainid timestamp conduit a s = .ok (s', receipts)) :
    s'.entered = true ∧ s'.usedNonces = s.usedNonces ∧ receipts = [] := by
  cases a with
  | foreign f =>
    rw [act, pure_eq_ok] at h
    obtain ⟨rfl, rfl⟩ := Prod.mk.inj h
    exact ⟨hs, rfl, rfl⟩
  | redeem r quorumSig calls =>
    rw [act, redeem, hs] at h
    cases h
  | setVault _ _ _ | transferOwnership _ _ | acceptOwnership _ | renounceOwnership _ =>
    simp only [act, onlyOwner, bind_eq_ok, require_eq_ok, exists_const, pure_eq_ok] at h
    obtain ⟨rfl, rfl⟩ := Prod.mk.inj h.2
    exact ⟨hs, rfl, rfl⟩

theorem actAll_frozen {calls : List (Action F)} {s s' : Chain F} {receipts : List (Receipt F)}
    (hs : s.entered = true)
    (h : actAll K X chainid timestamp conduit calls s = some (s', receipts)) :
    s'.entered = true ∧ s'.usedNonces = s.usedNonces ∧ receipts = [] := by
  induction calls generalizing s receipts with
  | nil =>
    rw [actAll, Option.some.injEq] at h
    obtain ⟨rfl, rfl⟩ := Prod.mk.inj h
    exact ⟨hs, rfl, rfl⟩
  | cons a rest ih =>
    rw [actAll, Option.bind_eq_some_iff] at h
    obtain ⟨⟨mid, first⟩, ha, h⟩ := h
    obtain ⟨⟨last, others⟩, hrest, heq⟩ := Option.map_eq_some_iff.mp h
    obtain ⟨hentered, hused, rfl⟩ := act_frozen hs (toOption_eq_some.mp ha)
    obtain ⟨rfl, hreceipts⟩ := Prod.mk.inj heq
    obtain ⟨hentered', hused', hnone⟩ := ih hentered hrest
    exact ⟨hentered', hused'.trans hused, hreceipts.symm.trans hnone⟩

variable (K X chainid conduit) in
/-- A redemption that was carried out as it was signed. -/
structure AsSigned (c : Receipt F) : Prop where
  accepted : X.isValidSignature c.checked c.redemption.treasury
    (redeemHash K chainid conduit c.redemption) c.quorumSig = some erc1271MagicValue
  registered : c.checked.vaults c.redemption.vault = true
  call : c.call = c.redemption.vaultCall
  inTime : c.timestamp ≤ c.redemption.deadline
  asset : X.asset c.called.foreign c.redemption.vault = some c.asset
  gained : ∃ before after : Uint256,
    X.balanceOf c.called.foreign c.asset c.redemption.treasury = some before
      ∧ X.balanceOf c.returned.foreign c.asset c.redemption.treasury = some after
      ∧ before.toNat + c.redemption.minAssets.toNat ≤ after.toNat

/-- **A redemption**: its nonce was not used before, no other nonce is used by it, and it
leaves one receipt, of the states it passed. -/
theorem redeem_spec {r : Redemption} {quorumSig : Bytes} {calls : VaultCall → List (Action F)}
    {s s' : Chain F} {receipts : List (Receipt F)}
    (h : redeem K X chainid timestamp conduit r quorumSig
      (fun call => actAll K X chainid timestamp conduit (calls call)) s = .ok (s', receipts)) :
    ∃ c, receipts = [c] ∧ AsSigned K X chainid conduit c ∧ c.redemption = r
      ∧ c.quorumSig = quorumSig ∧ c.timestamp = timestamp ∧ c.checked.foreign = s.foreign
      ∧ c.called.foreign = s.foreign ∧ c.returned.foreign = s'.foreign
      ∧ s.usedNonces r.treasury r.nonce = false ∧ s'.entered = false
      ∧ s'.usedNonces = (s.useNonce r.treasury r.nonce).usedNonces := by
  simp only [redeem, bind_eq_ok, require_eq_ok, orRevert_eq_ok, exists_const, Prod.exists,
    pure_eq_ok] at h
  obtain ⟨-, hvault, -, htime, hunused, magic, hmagic, rfl, asset, hasset, before, hbefore,
    returned, inner, hcall, after, hafter, gained, hgained, hfloor, heq⟩ := h
  obtain ⟨rfl, rfl⟩ := Prod.mk.inj heq
  obtain ⟨-, hused, rfl⟩ := actAll_frozen rfl hcall
  refine ⟨_, rfl, ⟨hmagic, hvault, rfl, ?_, hasset, before, after, hbefore, hafter, ?_⟩, rfl,
    rfl, rfl, rfl, rfl, rfl, hunused, rfl, hused⟩
  · exact BitVec.not_lt.mp htime
  · have hsub : before.toNat ≤ after.toNat ∧ after.toNat - before.toNat = gained := by
      rw [checkedSub, Option.ite_none_right_eq_some, Option.some.injEq] at hgained
      exact hgained
    show before.toNat + r.minAssets.toNat ≤ after.toNat
    omega

/-- **One transaction** that starts outside of the conduit. -/
theorem act_spec {a : Action F} {s s' : Chain F} {receipts : List (Receipt F)}
    (hs : s.entered = false)
    (h : act K X chainid timestamp conduit a s = .ok (s', receipts)) :
    s'.entered = false ∧ ((receipts = [] ∧ s'.usedNonces = s.usedNonces) ∨
      ∃ c, receipts = [c] ∧ AsSigned K X chainid conduit c
        ∧ s.usedNonces c.redemption.treasury c.redemption.nonce = false
        ∧ s'.usedNonces
          = (s.useNonce c.redemption.treasury c.redemption.nonce).usedNonces) := by
  cases a with
  | foreign f =>
    rw [act, pure_eq_ok] at h
    obtain ⟨rfl, rfl⟩ := Prod.mk.inj h
    exact ⟨hs, .inl ⟨rfl, rfl⟩⟩
  | redeem r quorumSig calls =>
    rw [act] at h
    obtain ⟨c, rfl, hsigned, rfl, -, -, -, -, -, hunused, hentered, hused⟩ := redeem_spec h
    exact ⟨hentered, .inr ⟨c, rfl, hsigned, hunused, hused⟩⟩
  | setVault _ _ _ | transferOwnership _ _ | acceptOwnership _ | renounceOwnership _ =>
    simp only [act, onlyOwner, bind_eq_ok, require_eq_ok, exists_const, pure_eq_ok] at h
    obtain ⟨rfl, rfl⟩ := Prod.mk.inj h.2
    exact ⟨hs, .inl ⟨rfl, rfl⟩⟩

end

/-! ### Runs -/

section

variable {W F : Type} (K : Keccak W) (X : World W F) (chainid : Uint256) (conduit : Address)

/-- The nonce a receipt is for. -/
def Receipt.key (c : Receipt F) : Address × Uint256 := (c.redemption.treasury, c.redemption.nonce)

/-- The receipts so far: one for every nonce that is used, each as it was signed. -/
structure Accounted (s : Chain F) (receipts : List (Receipt F)) : Prop where
  outside : s.entered = false
  once : (receipts.map Receipt.key).Nodup
  used : ∀ treasury nonce, s.usedNonces treasury nonce = true ↔
    (treasury, nonce) ∈ receipts.map Receipt.key
  signed : ∀ c ∈ receipts, AsSigned K X chainid conduit c

variable {K X chainid conduit}

theorem accounted_deployed (owner : Address) (foreign : F) :
    Accounted K X chainid conduit (deployed owner foreign) [] where
  outside := rfl
  once := List.nodup_nil
  used := by
    intro treasury nonce
    simp [deployed]
  signed := by
    intro c hc
    cases hc

theorem Accounted.runTx {s : Chain F} {receipts : List (Receipt F)}
    (h : Accounted K X chainid conduit s receipts) (tx : Tx F) :
    Accounted K X chainid conduit (runTx K X chainid conduit tx s).1
      (receipts ++ (runTx K X chainid conduit tx s).2) := by
  rw [RedeemConduit.runTx]
  cases hact : act K X chainid tx.timestamp conduit tx.action s with
  | error e => rwa [List.append_nil]
  | ok p =>
    obtain ⟨houtside, hcases⟩ := act_spec h.outside hact
    rcases hcases with ⟨hnone, hsame⟩ | ⟨c, hone, hsigned, hunused, hmark⟩
    · rw [hnone, List.append_nil]
      exact ⟨houtside, h.once, fun t n => by rw [hsame]; exact h.used t n, h.signed⟩
    · have hnew : c.key ∉ receipts.map Receipt.key := by
        intro hmem
        rw [(h.used _ _).mpr hmem] at hunused
        cases hunused
      rw [hone]
      refine ⟨houtside, ?_, ?_, ?_⟩
      · rw [List.map_append]
        refine List.nodup_append.mpr ⟨h.once, List.nodup_singleton _, ?_⟩
        intro x hx y hy heq
        rw [heq, List.mem_singleton.mp hy] at hx
        exact hnew hx
      · intro treasury nonce
        rw [hmark, List.map_append, List.mem_append, ← h.used treasury nonce, Chain.useNonce]
        show (if treasury = c.redemption.treasury ∧ nonce = c.redemption.nonce then true
          else s.usedNonces treasury nonce) = true ↔ _ ∨ (treasury, nonce) ∈ [c.key]
        rw [List.mem_singleton, Receipt.key, Prod.mk.injEq]
        by_cases hkey : treasury = c.redemption.treasury ∧ nonce = c.redemption.nonce
        · rw [if_pos hkey]
          exact ⟨fun _ => .inr hkey, fun _ => rfl⟩
        · rw [if_neg hkey]
          exact ⟨.inl, fun hor => hor.resolve_right hkey⟩
      · intro d hd
        rcases List.mem_append.mp hd with hd | hd
        · exact h.signed d hd
        · rw [List.mem_singleton.mp hd]
          exact hsigned

theorem Accounted.runTxs {s : Chain F} {receipts : List (Receipt F)}
    (h : Accounted K X chainid conduit s receipts) (txs : List (Tx F)) :
    Accounted K X chainid conduit (runTxs K X chainid conduit txs s).1
      (receipts ++ (runTxs K X chainid conduit txs s).2) := by
  induction txs generalizing s receipts with
  | nil =>
    rw [RedeemConduit.runTxs, List.append_nil]
    exact h
  | cons tx rest ih =>
    rw [RedeemConduit.runTxs, ← List.append_assoc]
    exact ih (h.runTx tx)

end

/-- **The digest binds every parameter.** -/
theorem redeemHash_inj {W : Type} {K : Keccak W} {chainid chainid' : Uint256}
    {conduit conduit' : Address} {r r' : Redemption}
    (h : redeemHash K chainid conduit r = redeemHash K chainid' conduit' r') :
    chainid = chainid' ∧ conduit = conduit' ∧ r = r' := by
  obtain ⟨hdomain, hstruct⟩ := K.hashTyped_inj h
  have hdomain := K.hashWords_inj hdomain
  have hstruct := K.hashWords_inj hstruct
  simp only [List.cons.injEq, and_true, true_and] at hdomain hstruct
  obtain ⟨h1, h2, h3, h4, h5, h6⟩ := hstruct
  refine ⟨K.word_inj hdomain.1, K.addr_inj hdomain.2, ?_⟩
  cases r
  cases r'
  rw [Redemption.mk.injEq]
  exact ⟨K.addr_inj h1, K.addr_inj h2, K.word_inj h3, K.word_inj h4, K.word_inj h5, K.word_inj h6⟩

/-- A receipt is of the transaction that left it. -/
theorem receipt_of_act {W F : Type} {K : Keccak W} {X : World W F} {chainid : Uint256}
    {conduit : Address} {tx : Tx F} {s s' : Chain F} {receipts : List (Receipt F)}
    (h : act K X chainid tx.timestamp conduit tx.action s = .ok (s', receipts)) {c : Receipt F}
    (hc : c ∈ receipts) :
    (∃ calls, tx.action = .redeem c.redemption c.quorumSig calls) ∧ c.timestamp = tx.timestamp
      ∧ c.checked.foreign = s.foreign ∧ c.called.foreign = s.foreign
      ∧ c.returned.foreign = s'.foreign := by
  cases haction : tx.action with
  | redeem r quorumSig calls =>
    rw [haction, act] at h
    obtain ⟨d, rfl, -, rfl, rfl, htime, hchecked, hcalled, hreturned, -⟩ := redeem_spec h
    obtain rfl := List.mem_singleton.mp hc
    exact ⟨⟨calls, rfl⟩, htime, hchecked, hcalled, hreturned⟩
  | foreign f =>
    rw [haction, act, pure_eq_ok] at h
    rw [(Prod.mk.inj h).2] at hc
    cases hc
  | setVault _ _ _ | transferOwnership _ _ | acceptOwnership _ | renounceOwnership _ =>
    rw [haction] at h
    simp only [act, onlyOwner, bind_eq_ok, require_eq_ok, exists_const, pure_eq_ok] at h
    rw [(Prod.mk.inj h.2).2] at hc
    cases hc

/-- **A redemption runs at most once, and as it was signed.**  In every run from the
deployment, whatever the vaults do, a nonce of a treasury has at most one receipt; a
nonce is used if and only if it has one, so a redemption that reverts uses none; a
receipt is of a registered vault, which was called for the shares that were signed, in
time, under a digest that the treasury accepted and that no other arguments have, and the
treasury has gained what it asked for, from the start to the end of the transaction that
the receipt is of. -/
theorem redeemed_once {W F : Type} (K : Keccak W) (X : World W F) (chainid : Uint256)
    (conduit owner : Address) (foreign : F) (txs : List (Tx F)) :
    ((runTxs K X chainid conduit txs (deployed owner foreign)).2.map Receipt.key).Nodup ∧
    (∀ treasury nonce,
      (runTxs K X chainid conduit txs (deployed owner foreign)).1.usedNonces treasury nonce = true
        ↔ (treasury, nonce) ∈
          (runTxs K X chainid conduit txs (deployed owner foreign)).2.map Receipt.key) ∧
    (∀ c ∈ (runTxs K X chainid conduit txs (deployed owner foreign)).2,
      AsSigned K X chainid conduit c ∧
        ∀ r, redeemHash K chainid conduit r = redeemHash K chainid conduit c.redemption →
          r = c.redemption) ∧
    (∀ (tx : Tx F) (s s' : Chain F) (receipts : List (Receipt F)),
      act K X chainid tx.timestamp conduit tx.action s = .ok (s', receipts) → ∀ c ∈ receipts,
        (∃ calls, tx.action = .redeem c.redemption c.quorumSig calls)
          ∧ c.timestamp = tx.timestamp ∧ c.checked.foreign = s.foreign
          ∧ c.called.foreign = s.foreign ∧ c.returned.foreign = s'.foreign) ∧
    (∀ (tx : Tx F) (s : Chain F) (e : Revert),
      act K X chainid tx.timestamp conduit tx.action s = .error e →
        (runTx K X chainid conduit tx s).1.usedNonces = s.usedNonces) := by
  have h := (@accounted_deployed W F K X chainid conduit owner foreign).runTxs txs
  rw [List.nil_append] at h
  refine ⟨h.once, h.used, ?_, fun _ _ _ _ hact _ hc => receipt_of_act hact hc, ?_⟩
  · intro c hc
    exact ⟨h.signed c hc, fun r hr => (redeemHash_inj hr).2.2⟩
  · intro tx s e herror
    rw [runTx, herror]

/-- A treasury that signs everything, and a vault whose asset has one balance. -/
def openWorld : World Term ℕ where
  isValidSignature _ _ _ _ := some erc1271MagicValue
  asset _ _ := some 9
  balanceOf balance _ _ := some (BitVec.ofNat 256 balance)

/-- Ten shares for at least a hundred. -/
def tenShares : Redemption := ⟨1, 2, 10, 100, 1000, 7⟩

/-- A vault that pays a hundred and one, a second time, and a vault that comes back. -/
example :
    let pays : Action ℕ := .redeem tenShares []
      (fun call => [.foreign (· + (call.shares.toNat * 10 + 1))])
    let comesBack : Action ℕ := .redeem { tenShares with nonce := 8 } [] (fun _ => [pays])
    let txs := [.setVault 5 2 true, comesBack, pays, pays].map (Tx.mk 900)
    let run := runTxs .symbolic openWorld 1 4 txs (deployed 5 0)
    run.2.map Receipt.key = [(1, 7)] ∧ run.1.foreign = 101
      ∧ run.1.usedNonces 1 8 = false := by
  decide +kernel

end Bufi.RedeemConduit
