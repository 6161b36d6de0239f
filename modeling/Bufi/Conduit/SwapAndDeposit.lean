import Bufi.Conduit.Safety
import Bufi.Evm.Abi

/-!
# A target that swaps and deposits

`TreasurySwapAndDeposit.sol`.  `run` takes the input from its caller, has a venue
swap it for USDC where it is not USDC already, has a vault or a pool take the USDC,
and gives its caller back what is left of the two.  What the venue and the
destination do is a list of operations on the tokens, or a failure.

All that the target does for itself cancels out: the tokens it takes from the caller
go back with the sweep, so every balance changes by the operations of the others
(`run_spec`).
-/

namespace Bufi.Conduit

open Bufi.Evm Bufi.Evm.Erc20

/-! ### The contract -/

inductive DestKind
  | vault4626
  | aaveV3Supply
  deriving DecidableEq

structure RunArgs where
  tokenIn : Address
  amountIn : Uint256
  swapTarget : Address
  swapData : Bytes
  destKind : DestKind
  dest : Address
  beneficiary : Address
  minUsdc : Uint256
  deriving DecidableEq

/-- The registries of the contract; `usdc` is immutable. -/
structure Router where
  usdc : Address
  venues : Address → Bool
  dests : Address → Bool

inductive SwapError
  | zeroAddress
  | venueNotRegistered (venue : Address)
  | destNotRegistered (dest : Address)
  | swapRequired
  | unexpectedSwap
  | swapFailed
  | depositFailed
  | belowUsdcFloor (got : ℕ) (minUsdc : Uint256)
  | token
  deriving DecidableEq

def destKindOf (w : Bytes32) : Option DestKind :=
  if w = 0 then some .vault4626 else if w = 1 then some .aaveV3Supply else none

/-- `run(address,uint256,address,bytes,uint8,address,address,uint256)`. -/
def runSelector : Bytes := [0x4c, 0x11, 0xa4, 0x9e]

/-- The arguments that the dispatcher decodes. -/
def decodeRun (data : Bytes) : Option RunArgs := do
  if data.take 4 ≠ runSelector then none
  let d := data.drop 4
  let tokenIn ← Abi.address d 0
  let amountIn ← Abi.word d 32
  let swapTarget ← Abi.address d 64
  let start ← Abi.tail d 0 96
  let swapData ← Abi.bytes d start
  let destKind ← (Abi.word d 128).bind destKindOf
  let dest ← Abi.address d 160
  let beneficiary ← Abi.address d 192
  let minUsdc ← Abi.word d 224
  pure ⟨tokenIn, amountIn, swapTarget, swapData.data, destKind, dest, beneficiary, minUsdc⟩

/-- The operations of a called contract; `none` is a call that fails. -/
def runOps (ops : Option (List (Op Address Address))) (l : Ledger Address Address) :
    Option (Ledger Address Address) :=
  ops.bind (fun ops => applyAll ops l)

/-- The swap, or that none is asked for. -/
def swapLeg (c : Router) (router : Address) (args : RunArgs)
    (swap : Option (List (Op Address Address))) (l : Ledger Address Address) :
    Except SwapError (Ledger Address Address) :=
  if args.tokenIn ≠ c.usdc then do
    require (args.swapTarget ≠ 0 ∧ c.venues args.swapTarget = true)
      (.venueNotRegistered args.swapTarget)
    require (args.swapData ≠ []) .swapRequired
    let l ← orRevert
      (runOps swap (l.setAllowance args.tokenIn router args.swapTarget args.amountIn.toNat))
      .swapFailed
    pure (l.setAllowance args.tokenIn router args.swapTarget 0)
  else do
    require (args.swapTarget = 0 ∧ args.swapData = []) .unexpectedSwap
    pure l

/-- The function `run`, called by `sender` on the contract at `router`. -/
def run (c : Router) (router sender : Address) (args : RunArgs)
    (swap deposit : Option (List (Op Address Address))) (l : Ledger Address Address) :
    Except SwapError (Ledger Address Address) := do
  require (args.beneficiary ≠ 0 ∧ args.tokenIn ≠ 0) .zeroAddress
  require (c.dests args.dest = true) (.destNotRegistered args.dest)
  let taken ← orRevert
    (Op.apply (.transferFrom args.tokenIn router sender router args.amountIn.toNat) l) .token
  let swapped ← swapLeg c router args swap taken
  let usdcBal := swapped.balance c.usdc router
  require (args.minUsdc.toNat ≤ usdcBal) (.belowUsdcFloor usdcBal args.minUsdc)
  let deposited ← orRevert
    (runOps deposit (swapped.setAllowance c.usdc router args.dest usdcBal)) .depositFailed
  let first ← orRevert
    (sweep router args.tokenIn sender (deposited.setAllowance c.usdc router args.dest 0)) .token
  orRevert (if args.tokenIn ≠ c.usdc then sweep router c.usdc sender first else some first) .token

/-! ### What a run does -/

section

variable {c : Router} {router sender : Address} {args : RunArgs}
  {swap deposit : Option (List (Op Address Address))} {l l' : Ledger Address Address}

/-- The operations of the venue and of the destination. -/
def outsideOps (c : Router) (args : RunArgs) (swap deposit : Option (List (Op Address Address))) :
    List (Op Address Address) :=
  (if args.tokenIn ≠ c.usdc then swap.getD [] else []) ++ deposit.getD []

theorem runOps_eq_some {ops : Option (List (Op Address Address))} (h : runOps ops l = some l') :
    applyAll (ops.getD []) l = some l' := by
  obtain ⟨ops, rfl, h⟩ := Option.bind_eq_some_iff.mp h
  exact h

theorem swapLeg_balance (h : swapLeg c router args swap l = .ok l') (t a : Address) :
    (l'.balance t a : ℤ)
      = l.balance t a + net t a (if args.tokenIn ≠ c.usdc then swap.getD [] else []) := by
  rw [swapLeg] at h
  split_ifs at h ⊢ with hne
  · simp only [bind_eq_ok, require_eq_ok, exists_const, orRevert_eq_ok, pure_eq_ok] at h
    obtain ⟨-, -, m, hm, rfl⟩ := h
    exact applyAll_balance (runOps_eq_some hm) t a
  · simp only [bind_eq_ok, require_eq_ok, exists_const, pure_eq_ok] at h
    obtain ⟨-, rfl⟩ := h
    rw [net_nil, add_zero]

theorem swapLeg_allowance (h : swapLeg c router args swap l = .ok l') {t o s : Address}
    (hops : ∀ op ∈ (if args.tokenIn ≠ c.usdc then swap.getD [] else []), op.actor ≠ some o) :
    l'.allowance t o s ≤ l.allowance t o s
      ∧ (args.tokenIn ≠ c.usdc → l'.allowance args.tokenIn router args.swapTarget = 0) := by
  rw [swapLeg] at h
  split_ifs at h hops with hne
  · simp only [bind_eq_ok, require_eq_ok, exists_const, orRevert_eq_ok, pure_eq_ok] at h
    obtain ⟨-, -, m, hm, rfl⟩ := h
    refine ⟨?_, fun _ => if_pos ⟨rfl, rfl, rfl⟩⟩
    by_cases hk : t = args.tokenIn ∧ o = router ∧ s = args.swapTarget
    · exact (if_pos hk).trans_le (Nat.zero_le _)
    · rw [setAllowance_of_ne hk]
      refine (applyAll_allowance_le (runOps_eq_some hm) hops).trans_eq ?_
      exact setAllowance_of_ne hk
  · simp only [bind_eq_ok, require_eq_ok, exists_const, pure_eq_ok] at h
    obtain ⟨-, rfl⟩ := h
    exact ⟨le_rfl, fun hc => absurd hc hne⟩

/-- What a run does with the operations `ops` of the others. -/
structure RunSpec (c : Router) (router sender : Address) (args : RunArgs)
    (ops : List (Op Address Address)) (l l' : Ledger Address Address) : Prop where
  kept : ∀ t, (l'.balance t router : ℤ)
    = if t = args.tokenIn ∨ t = c.usdc then 0 else l.balance t router + net t router ops
  returned : ∀ t, (l'.balance t sender : ℤ)
    = l.balance t sender + net t sender ops
      + if t = args.tokenIn ∨ t = c.usdc then l.balance t router + net t router ops else 0
  elsewhere : ∀ t a, a ≠ router → a ≠ sender → (l'.balance t a : ℤ) = l.balance t a + net t a ops
  allowance : ∀ t o s, (∀ op ∈ ops, op.actor ≠ some o) →
    l'.allowance t o s ≤ l.allowance t o s
  venue : args.tokenIn ≠ c.usdc → l'.allowance args.tokenIn router args.swapTarget = 0
  dest : l'.allowance c.usdc router args.dest = 0

/-- **Balances change by the operations of the others**, and what the contract has of
the two tokens goes to the caller. -/
theorem run_spec (hne : router ≠ sender)
    (hops : ∀ op ∈ outsideOps c args swap deposit, op.actor ≠ some router)
    (h : run c router sender args swap deposit l = .ok l') :
    RunSpec c router sender args (outsideOps c args swap deposit) l l' := by
  simp only [run, bind_eq_ok, require_eq_ok, exists_const, orRevert_eq_ok] at h
  obtain ⟨-, -, taken, htaken, swapped, hswapped, -, deposited, hdeposited, first, hfirst,
    hsecond⟩ := h
  have hswept := (sweep_spec hne hfirst).second hne Iff.rfl hsecond
  have hbefore : ∀ t a, (deposited.balance t a : ℤ) = l.balance t a
      + (amountAt args.tokenIn t router a args.amountIn.toNat
        - amountAt args.tokenIn t sender a args.amountIn.toNat)
      + net t a (outsideOps c args swap deposit) := by
    intro t a
    have htake := apply_balance htaken t a
    have hswap := swapLeg_balance hswapped t a
    have hdep := applyAll_balance (runOps_eq_some hdeposited) t a
    rw [setAllowance_balance] at hdep
    rw [outsideOps, net_append, hdep, hswap, htake, Op.delta]
    omega
  refine ⟨fun t => ?_, fun t => ?_, fun t a ha ha' => ?_, fun t o s ho => ?_, fun hdiffer => ?_,
    ?_⟩
  · have hheld := hswept.held t
    have hb := hbefore t router
    simp only [amountAt, hne, and_false, and_true, if_false] at hb
    rw [hheld]
    split_ifs with ht
    · rfl
    · have hin : t ≠ args.tokenIn := fun he => ht (.inl he)
      rw [setAllowance_balance, hb, if_neg hin]
      omega
  · have hreceived := hswept.received t
    have hb := hbefore t sender
    have hbr := hbefore t router
    simp only [amountAt, hne, hne.symm, and_false, and_true, if_false] at hb hbr
    rw [hreceived, setAllowance_balance]
    push_cast
    rw [hb]
    by_cases hin : t = args.tokenIn
    · rw [if_pos hin] at hb hbr ⊢
      rw [if_pos (.inl hin), if_pos (.inl hin), hbr]
      omega
    · rw [if_neg hin] at hb hbr ⊢
      split_ifs
      · rw [hbr]
        omega
      · omega
  · have hother := hswept.other t a ha ha'
    have hb := hbefore t a
    simp only [amountAt, ha, ha', and_false, if_false] at hb
    rw [hother, setAllowance_balance, hb]
    omega
  · rw [hswept.allowance]
    by_cases hk : t = c.usdc ∧ o = router ∧ s = args.dest
    · exact (if_pos hk).trans_le (Nat.zero_le _)
    · rw [setAllowance_of_ne hk]
      have hdep := applyAll_allowance_le (t := t) (s := s) (runOps_eq_some hdeposited)
        (fun op hop => ho op (List.mem_append_right _ hop))
      rw [setAllowance_of_ne hk] at hdep
      have hswap := (swapLeg_allowance (t := t) (s := s) hswapped
        (fun op hop => ho op (List.mem_append_left _ hop))).1
      have htake := apply_allowance_le (t := t) (o := o) (s := s) htaken (by
        intro _ _ _ he
        cases he)
      exact hdep.trans (hswap.trans htake)
  · have hk : ¬(args.tokenIn = c.usdc ∧ router = router ∧ args.swapTarget = args.dest) :=
      fun he => hdiffer he.1
    have hdep := applyAll_allowance_le (t := args.tokenIn) (s := args.swapTarget)
      (runOps_eq_some hdeposited) (fun op hop => hops op (List.mem_append_right _ hop))
    have hswap := (swapLeg_allowance (t := args.tokenIn) (s := args.swapTarget) hswapped
      (fun op hop => hops op (List.mem_append_left _ hop))).2 hdiffer
    rw [setAllowance_of_ne hk, hswap] at hdep
    rw [hswept.allowance, setAllowance_of_ne hk]
    exact Nat.le_zero.mp hdep
  · rw [hswept.allowance]
    exact if_pos ⟨rfl, rfl, rfl⟩

end

end Bufi.Conduit
