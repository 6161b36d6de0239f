import Bufi.Evm.Erc20

/-!
# Vaults

A vault keeps a token, its asset, for the holders of its shares.  The shares are a
token of their own, under the name of the vault.  Who withdraws names an amount of
the asset and who redeems an amount of shares; either way shares of the owner are
burned and the asset goes to the receiver, whoever that is.  A caller that is not the
owner needs an allowance of the owner.

At what rate a vault converts is up to the vault, and may change at any time: the
rates are part of the `Market`.
-/

namespace Bufi.Evm.Erc4626

open Erc20

variable {A : Type} [DecidableEq A]

structure Market (A : Type) where
  ledger : Ledger A A
  /-- The shares that a withdrawal of an amount burns. -/
  previewWithdraw : A → ℕ → ℕ
  /-- The assets that shares are redeemed for. -/
  previewRedeem : A → ℕ → ℕ

/-- The owner needs no allowance. -/
def spendShares (vault caller owner : A) (shares : ℕ) (l : Ledger A A) : Option (Ledger A A) :=
  if caller = owner then some l else l.spend vault owner caller shares

/-- Shares of the owner for assets to the receiver. -/
def payOut (asset vault caller receiver owner : A) (shares assets : ℕ) (l : Ledger A A) :
    Option (Ledger A A) := do
  let l ← spendShares vault caller owner shares l
  let l ← l.debit vault owner shares
  l.move asset vault receiver assets

/-- The market after `withdraw(assets, receiver, owner)`. -/
def withdraw (asset vault caller receiver owner : A) (assets : ℕ) (m : Market A) :
    Option (Market A) :=
  (payOut asset vault caller receiver owner (m.previewWithdraw vault assets) assets m.ledger).map
    (fun ledger => { m with ledger })

/-- The market after `redeem(shares, receiver, owner)`, and the assets. -/
def redeem (asset vault caller receiver owner : A) (shares : ℕ) (m : Market A) :
    Option (Market A × ℕ) :=
  let assets := m.previewRedeem vault shares
  (payOut asset vault caller receiver owner shares assets m.ledger).map
    (fun ledger => ({ m with ledger }, assets))

end Bufi.Evm.Erc4626
