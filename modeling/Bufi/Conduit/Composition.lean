import Bufi.Conduit.SwapAndDeposit

/-!
# The conduit with the target that swaps and deposits

Leftovers travel back through two contracts: the target gives the conduit what it
has left of the input and of USDC, and the conduit gives the treasury what it has
left of the input and of the output.  `Outcome` is what an execution does to all
balances.  USDC that the destination does not take is in both lists only where it is
the input or the output itself; elsewhere it stays in the conduit, for whoever comes
next with USDC among the two (`settled_iff_covered`).

`Covered` is the condition: USDC is the input or the output, or the venue and the
destination leave none of it.  In a run in which every execution is covered the two
contracts are empty throughout, and no treasury gets anything from the call of
another (`Empty.execute`).
-/

namespace Bufi.Conduit

open Bufi.Evm Bufi.Evm.Erc20

/-! ### Executions -/

/-- An execution whose target is the contract at `router`.  Neither contract has a
signature of its own; the venue and the destination act for themselves, and give the
two contracts nothing but the input and USDC. -/
structure SwapTx (W : Type) (usdc conduit router : Address) where
  env : Env W
  auth : Authorization W
  quorumSignature : Bytes
  intent : Intent
  args : RunArgs
  venues : Address → Bool
  dests : Address → Bool
  swap : Option (List (Op Address Address))
  deposit : Option (List (Op Address Address))
  unsigned : ∀ g signature, g.from' = conduit ∨ g.from' = router →
    env.signed g signature = false
  target : intent.target = router
  decoded : decodeRun intent.data = some args
  beneficiary : args.beneficiary = auth.from'
  tokenIn : args.tokenIn = auth.token
  outsiders : ∀ op ∈ outsideOps ⟨usdc, venues, dests⟩ args swap deposit,
    op.actor ≠ some conduit ∧ op.actor ≠ some router
  delivered : ∀ op ∈ outsideOps ⟨usdc, venues, dests⟩ args swap deposit, ∀ t,
    op.recipient = some (t, conduit) ∨ op.recipient = some (t, router) →
      t = args.tokenIn ∨ t = usdc

section

variable {W : Type} [DecidableEq W] {K : Keccak W} {usdc conduit router : Address}

namespace SwapTx

variable (tx : SwapTx W usdc conduit router)

def treasury : Address := tx.auth.from'

/-- What the venue and the destination do. -/
def ops : List (Op Address Address) :=
  outsideOps ⟨usdc, tx.venues, tx.dests⟩ tx.args tx.swap tx.deposit

/-- The call of the conduit to the target. -/
def call (s : Chain W) : Option (Chain W) :=
  (decodeRun tx.intent.data).bind (fun args =>
    (run ⟨usdc, tx.venues, tx.dests⟩ router conduit args tx.swap tx.deposit s.ledger).toOption.map
      (fun l => { s with ledger := l }))

def execute (K : Keccak W) (s : Chain W) : Except (Revert W) (Chain W) :=
  Conduit.execute K tx.env conduit tx.auth tx.quorumSignature tx.intent tx.call s

/-- The three tokens of an execution. -/
def Token (t : Address) : Prop := t = tx.intent.tokenIn ∨ t = usdc ∨ t = tx.intent.tokenOut

/-- USDC is swept with the input or the output, or none of it is left. -/
def Covered : Prop :=
  tx.intent.tokenIn = usdc ∨ tx.intent.tokenOut = usdc
    ∨ net usdc conduit tx.ops + net usdc router tx.ops = 0

instance decidableCovered : Decidable tx.Covered :=
  inferInstanceAs (Decidable (_ ∨ _ ∨ _))

/-- Neither contract has any of the three tokens. -/
def Clean (s : Chain W) : Prop :=
  ∀ t, tx.Token t → s.ledger.balance t conduit = 0 ∧ s.ledger.balance t router = 0

/-- Nothing is left behind: no balance, no allowance, and what the venue and the
destination have not taken is the treasury's. -/
structure Settled (s s' : Chain W) : Prop where
  clean : tx.Clean s'
  toTarget : s'.ledger.allowance tx.intent.tokenIn conduit router = 0
  toVenue : tx.intent.tokenIn ≠ usdc →
    s'.ledger.allowance tx.intent.tokenIn router tx.args.swapTarget = 0
  toDest : s'.ledger.allowance usdc router tx.args.dest = 0
  allowances : ∀ t o spender, o = conduit ∨ o = router →
    s'.ledger.allowance t o spender ≤ s.ledger.allowance t o spender
  back : ∀ t, tx.Token t → (s'.ledger.balance t tx.treasury : ℤ)
    = s.ledger.balance t tx.treasury
      + (net t tx.treasury tx.ops + net t conduit tx.ops + net t router tx.ops)

/-- What an execution does to every balance. -/
structure Outcome (l l' : Ledger Address Address) : Prop where
  kept : ∀ t, (l'.balance t router : ℤ)
    = if t = tx.intent.tokenIn ∨ t = usdc then 0 else l.balance t router + net t router tx.ops
  through : ∀ t, (l'.balance t conduit : ℤ) + l'.balance t tx.treasury
    = l.balance t conduit + net t conduit tx.ops + l.balance t tx.treasury
      + net t tx.treasury tx.ops
      + if t = tx.intent.tokenIn ∨ t = usdc then l.balance t router + net t router tx.ops else 0
  emptied : ∀ t, t = tx.intent.tokenIn ∨ t = tx.intent.tokenOut → l'.balance t conduit = 0
  untouched : ∀ t, t ≠ tx.intent.tokenIn → t ≠ tx.intent.tokenOut →
    (l'.balance t tx.treasury : ℤ) = l.balance t tx.treasury + net t tx.treasury tx.ops
  elsewhere : ∀ t a, a ≠ tx.treasury → a ≠ conduit → a ≠ router →
    (l'.balance t a : ℤ) = l.balance t a + net t a tx.ops
  toTarget : l'.allowance tx.intent.tokenIn conduit router = 0
  toVenue : tx.intent.tokenIn ≠ usdc → l'.allowance tx.intent.tokenIn router tx.args.swapTarget = 0
  toDest : l'.allowance usdc router tx.args.dest = 0
  allowances : ∀ t o spender, o = conduit ∨ o = router →
    l'.allowance t o spender ≤ l.allowance t o spender

variable {tx} {s s' pulled called swept : Chain W}

omit [DecidableEq W] in
theorem call_eq_some (h : tx.call s = some s') :
    ∃ l, run ⟨usdc, tx.venues, tx.dests⟩ router conduit tx.args tx.swap tx.deposit s.ledger = .ok l
      ∧ s' = { s with ledger := l } := by
  rw [call, tx.decoded] at h
  obtain ⟨l, hl, rfl⟩ := Option.map_eq_some_iff.mp h
  exact ⟨l, toOption_eq_some.mp hl, rfl⟩

/-- The ledgers of an execution: after the pull and after the call. -/
structure Ledgers (tx : SwapTx W usdc conduit router) (l pulled called l' : Ledger Address Address) :
    Prop where
  treasury_ne_conduit : tx.treasury ≠ conduit
  treasury_ne_router : tx.treasury ≠ router
  pull : l.move tx.intent.tokenIn tx.treasury conduit tx.intent.amountIn.toNat = some pulled
  run : RunSpec ⟨usdc, tx.venues, tx.dests⟩ router conduit tx.args tx.ops
    (pulled.setAllowance tx.intent.tokenIn conduit router tx.intent.amountIn.toNat) called
  sweep : Swept (fun t => t = tx.intent.tokenIn ∨ t = tx.intent.tokenOut) conduit tx.treasury
    (called.setAllowance tx.intent.tokenIn conduit router 0) l'
  tokenIn : tx.args.tokenIn = tx.intent.tokenIn

theorem ledgers_of_execute (hne : conduit ≠ router) (h : tx.execute K s = .ok s') :
    ∃ pulled called, tx.Ledgers s.ledger pulled called s'.ledger := by
  rw [execute, execute_eq_ok] at h
  obtain ⟨pulled, called, swept, hst, rfl⟩ := h
  have htc : tx.auth.from' ≠ conduit :=
    hst.treasury_ne (fun g signature hg => tx.unsigned g signature (.inl hg))
  have htr : tx.auth.from' ≠ router := by
    intro he
    have hsigned := hst.pulled_eq.1
    rw [tx.unsigned _ _ (.inr he)] at hsigned
    cases hsigned
  obtain ⟨-, -, l, hmove, rfl⟩ := hst.pulled_eq
  obtain ⟨m, hrun, rfl⟩ := call_eq_some hst.call
  obtain ⟨-, hswept⟩ := hst.swept_spec htc
  have hspec := run_spec hne.symm (fun op hop => (tx.outsiders op hop).2) hrun
  rw [← hst.tokenIn, ← hst.amountIn] at hmove
  rw [tx.target] at hswept
  dsimp only [forceApprove] at hspec
  rw [tx.target] at hspec
  exact ⟨l, m, htc, htr, hmove, hspec, hswept, tx.tokenIn.trans hst.tokenIn.symm⟩

omit [DecidableEq W] in
/-- **What the two contracts do for themselves cancels out.** -/
theorem Ledgers.outcome {l pulled called l' : Ledger Address Address} (hne : conduit ≠ router)
    (h : tx.Ledgers l pulled called l') : tx.Outcome l l' := by
  obtain ⟨-, hallow, hpull⟩ := move_eq_some h.pull
  have hin := h.tokenIn
  have htc := h.treasury_ne_conduit
  have htr := h.treasury_ne_router
  have hpulledT : ∀ t, (pulled.balance t tx.treasury : ℤ) = l.balance t tx.treasury
      - if t = tx.intent.tokenIn then tx.intent.amountIn.toNat else 0 := by
    intro t
    have hb := hpull t tx.treasury
    simp only [amountAt, htc, and_false, and_true, if_false] at hb
    rw [hb]
    split_ifs <;> omega
  have hpulledC : ∀ t, (pulled.balance t conduit : ℤ) = l.balance t conduit
      + if t = tx.intent.tokenIn then tx.intent.amountIn.toNat else 0 := by
    intro t
    have hb := hpull t conduit
    simp only [amountAt, htc.symm, and_false, and_true, if_false] at hb
    rw [hb]
    split_ifs <;> omega
  have hpulledO : ∀ t a, a ≠ tx.treasury → a ≠ conduit → pulled.balance t a = l.balance t a := by
    intro t a ha ha'
    have hb := hpull t a
    simp only [amountAt, ha, ha', and_false, if_false] at hb
    omega
  refine ⟨fun t => ?_, fun t => ?_, fun t ht => ?_, fun t h1 h2 => ?_, fun t a h1 h2 h3 => ?_, ?_,
    fun hdiffer => ?_, ?_, fun t o spender ho => ?_⟩
  · have hrouter := h.run.kept t
    rw [setAllowance_balance, hin] at hrouter
    rw [h.sweep.other t router hne.symm htr.symm, setAllowance_balance, hrouter,
      hpulledO t router htr.symm hne.symm]
  · have hc := h.run.returned t
    have ht := h.run.elsewhere t tx.treasury htr htc
    rw [setAllowance_balance, hin] at hc
    rw [setAllowance_balance] at ht
    rw [hpulledC, hpulledO t router htr.symm hne.symm] at hc
    rw [hpulledT] at ht
    rw [h.sweep.held, h.sweep.received, setAllowance_balance]
    split_ifs at hc ht ⊢ <;> push_cast <;> omega
  · exact (h.sweep.held t).trans (if_pos ht)
  · have ht := h.run.elsewhere t tx.treasury htr htc
    rw [setAllowance_balance, hpulledT, if_neg h1] at ht
    rw [h.sweep.received, setAllowance_balance, if_neg (not_or.mpr ⟨h1, h2⟩), add_zero, ht]
    omega
  · have ha := h.run.elsewhere t a h3 h2
    rw [setAllowance_balance, hpulledO t a h1 h2] at ha
    rw [h.sweep.other t a h2 h1, setAllowance_balance, ha]
  · rw [h.sweep.allowance]
    exact if_pos ⟨rfl, rfl, rfl⟩
  · have hv := h.run.venue (hin ▸ hdiffer)
    rw [hin] at hv
    rw [h.sweep.allowance, setAllowance_of_ne (fun he => hne he.2.1.symm), hv]
  · rw [h.sweep.allowance, setAllowance_of_ne (fun he => hne he.2.1.symm), h.run.dest]
  · have hactor : ∀ op ∈ tx.ops, op.actor ≠ some o := by
      intro op hop
      rcases ho with rfl | rfl
      · exact (tx.outsiders op hop).1
      · exact (tx.outsiders op hop).2
    rw [h.sweep.allowance]
    by_cases hk : t = tx.intent.tokenIn ∧ o = conduit ∧ spender = router
    · exact (if_pos hk).trans_le (Nat.zero_le _)
    · have hle := h.run.allowance t o spender hactor
      rw [setAllowance_of_ne hk, hallow] at hle
      rwa [setAllowance_of_ne hk]

/-! ### Leftovers -/

omit [DecidableEq W] in
/-- Nothing else is given to the two contracts. -/
theorem net_nonpos_of_ne {t : Address} (hin : tx.args.tokenIn = tx.intent.tokenIn)
    (h1 : t ≠ tx.intent.tokenIn) (h2 : t ≠ usdc) :
    net t conduit tx.ops ≤ 0 ∧ net t router tx.ops ≤ 0 := by
  have hno : ∀ op ∈ tx.ops,
      ¬(op.recipient = some (t, conduit) ∨ op.recipient = some (t, router)) := by
    intro op hop hr
    rcases tx.delivered op hop t hr with he | he
    · exact h1 (he.trans hin)
    · exact h2 he
  exact ⟨net_nonpos (fun op hop hr => hno op hop (.inl hr)),
    net_nonpos (fun op hop hr => hno op hop (.inr hr))⟩

omit [DecidableEq W] in
/-- Of a token that the target does not sweep it still has nothing. -/
theorem Outcome.router_eq_zero {l l' : Ledger Address Address}
    (hin : tx.args.tokenIn = tx.intent.tokenIn) (h : tx.Outcome l l') {t : Address}
    (hzero : l.balance t router = 0) :
    l'.balance t router = 0
      ∧ (t ≠ tx.intent.tokenIn → t ≠ usdc → net t router tx.ops = 0) := by
  have hk := h.kept t
  by_cases ht : t = tx.intent.tokenIn ∨ t = usdc
  · rw [if_pos ht] at hk
    exact ⟨by omega, fun h1 h2 => (ht.elim h1 h2).elim⟩
  · obtain ⟨h1, h2⟩ := not_or.mp ht
    have hle := (net_nonpos_of_ne hin h1 h2).2
    rw [if_neg ht, hzero] at hk
    exact ⟨by omega, fun _ _ => by omega⟩

omit [DecidableEq W] in
/-- **Leftover USDC** is what the conduit has afterwards where it sweeps none. -/
theorem Outcome.usdc_left {l l' : Ledger Address Address} (h : tx.Outcome l l')
    (hconduit : l.balance usdc conduit = 0) (hrouter : l.balance usdc router = 0)
    (h1 : usdc ≠ tx.intent.tokenIn) (h2 : usdc ≠ tx.intent.tokenOut) :
    (l'.balance usdc conduit : ℤ) = net usdc conduit tx.ops + net usdc router tx.ops := by
  have ht := h.through usdc
  have hu := h.untouched usdc h1 h2
  rw [if_pos (.inr rfl), hconduit, hrouter] at ht
  omega

omit [DecidableEq W] in
/-- The balance of the treasury, where the two contracts end with nothing. -/
theorem Outcome.back {l l' : Ledger Address Address} (hin : tx.args.tokenIn = tx.intent.tokenIn)
    (h : tx.Outcome l l') {t : Address} (hconduit : l.balance t conduit = 0)
    (hrouter : l.balance t router = 0) (hafter : l'.balance t conduit = 0) :
    (l'.balance t tx.treasury : ℤ) = l.balance t tx.treasury
      + (net t tx.treasury tx.ops + net t conduit tx.ops + net t router tx.ops) := by
  have ht := h.through t
  have hr := (h.router_eq_zero hin hrouter).2
  rw [hconduit, hrouter, hafter] at ht
  by_cases hs : t = tx.intent.tokenIn ∨ t = usdc
  · rw [if_pos hs] at ht
    omega
  · obtain ⟨h1, h2⟩ := not_or.mp hs
    have hzero := hr h1 h2
    rw [if_neg hs] at ht
    omega

omit [DecidableEq W] in
/-- **Nothing is left behind exactly when the execution is covered.** -/
theorem Outcome.settled_iff (hin : tx.args.tokenIn = tx.intent.tokenIn)
    (h : tx.Outcome s.ledger s'.ledger) (hclean : tx.Clean s) :
    tx.Settled s s' ↔ tx.Covered := by
  have husdc := hclean usdc (.inr (.inl rfl))
  constructor
  · intro hs
    by_contra hc
    obtain ⟨h1, hc⟩ := not_or.mp hc
    obtain ⟨h2, h3⟩ := not_or.mp hc
    have hleft := h.usdc_left husdc.1 husdc.2 (Ne.symm h1) (Ne.symm h2)
    rw [(hs.clean usdc (.inr (.inl rfl))).1] at hleft
    exact h3 (by omega)
  · intro hc
    have hafter : tx.Clean s' := by
      intro t ht
      refine ⟨?_, (h.router_eq_zero hin (hclean t ht).2).1⟩
      by_cases hs : t = tx.intent.tokenIn ∨ t = tx.intent.tokenOut
      · exact h.emptied t hs
      · obtain ⟨h1, h2⟩ := not_or.mp hs
        obtain rfl : t = usdc := by
          rcases ht with ht | ht | ht
          · exact absurd ht h1
          · exact ht
          · exact absurd ht h2
        have hleft := h.usdc_left husdc.1 husdc.2 h1 h2
        rcases hc with hc | hc | hc
        · exact absurd hc.symm h1
        · exact absurd hc.symm h2
        · omega
    refine ⟨hafter, h.toTarget, h.toVenue, h.toDest, h.allowances, fun t ht => ?_⟩
    exact h.back hin (hclean t ht).1 (hclean t ht).2 (hafter t ht).1

end SwapTx

/-! ### Runs -/

/-- Neither contract has any token, and neither has granted an allowance. -/
structure Empty (conduit router : Address) (l : Ledger Address Address) : Prop where
  balances : ∀ t o, o = conduit ∨ o = router → l.balance t o = 0
  allowances : ∀ t o spender, o = conduit ∨ o = router → l.allowance t o spender = 0

/-- Executions by any treasuries, and what others do in between without giving the
two contracts anything. -/
inductive SwapStep (W : Type) (usdc conduit router : Address)
  | execute (tx : SwapTx W usdc conduit router)
  | other (ops : List (Op Address Address))
      (outsiders : ∀ op ∈ ops, op.actor ≠ some conduit ∧ op.actor ≠ some router)
      (delivered : ∀ op ∈ ops, ∀ t, op.recipient ≠ some (t, conduit)
        ∧ op.recipient ≠ some (t, router))

def swapStep (K : Keccak W) (s : Chain W) : SwapStep W usdc conduit router → Option (Chain W)
  | .execute tx => (tx.execute K s).toOption
  | .other ops _ _ => (applyAll ops s.ledger).map (fun l => { s with ledger := l })

def SwapStep.Covered : SwapStep W usdc conduit router → Prop
  | .execute tx => tx.Covered
  | .other _ _ _ => True

/-- Every balance changes by what the venue and the destination of this very call
do; theirs with the two contracts is the treasury's. -/
def OwnChange (a : SwapStep W usdc conduit router) (l l' : Ledger Address Address) : Prop :=
  match a with
  | .execute tx => ∀ t a, a ≠ conduit → a ≠ router → (l'.balance t a : ℤ)
      = l.balance t a + net t a tx.ops
        + if a = tx.treasury then net t conduit tx.ops + net t router tx.ops else 0
  | .other ops _ _ => ∀ t a, (l'.balance t a : ℤ) = l.balance t a + net t a ops

variable {s s' : Chain W}

namespace Empty

theorem execute {tx : SwapTx W usdc conduit router} (hne : conduit ≠ router)
    (hs : Empty conduit router s.ledger) (hcovered : tx.Covered) (h : tx.execute K s = .ok s') :
    Empty conduit router s'.ledger ∧ OwnChange (.execute tx) s.ledger s'.ledger := by
  obtain ⟨pulled, called, hl⟩ := SwapTx.ledgers_of_execute hne h
  have hin := hl.tokenIn
  have hout := hl.outcome hne
  have hconduit : ∀ t, s.ledger.balance t conduit = 0 := fun t => hs.balances t conduit (.inl rfl)
  have hrouter : ∀ t, s.ledger.balance t router = 0 := fun t => hs.balances t router (.inr rfl)
  have hsettled : tx.Settled s s' :=
    (hout.settled_iff hin (fun t _ => ⟨hconduit t, hrouter t⟩)).mpr hcovered
  have hafter : ∀ t, s'.ledger.balance t conduit = 0 := by
    intro t
    by_cases ht : tx.Token t
    · exact (hsettled.clean t ht).1
    · obtain ⟨h1, ht⟩ := not_or.mp ht
      obtain ⟨h2, h3⟩ := not_or.mp ht
      have hthrough := hout.through t
      have huntouched := hout.untouched t h1 h3
      have hle := (SwapTx.net_nonpos_of_ne hin h1 h2).1
      rw [if_neg (not_or.mpr ⟨h1, h2⟩), hconduit t] at hthrough
      omega
  refine ⟨⟨?_, ?_⟩, ?_⟩
  · rintro t o (rfl | rfl)
    · exact hafter t
    · exact (hout.router_eq_zero hin (hrouter t)).1
  · intro t o spender ho
    exact Nat.le_zero.mp (hs.allowances t o spender ho ▸ hout.allowances t o spender ho)
  · intro t a h1 h2
    by_cases ha : a = tx.treasury
    · have hback := hout.back hin (hconduit t) (hrouter t) (hafter t)
      rw [if_pos ha, ha, hback]
      omega
    · rw [if_neg ha, hout.elsewhere t a ha h1 h2, add_zero]

theorem other {ops : List (Op Address Address)} {l l' : Ledger Address Address}
    (hl : Empty conduit router l)
    (houtsiders : ∀ op ∈ ops, op.actor ≠ some conduit ∧ op.actor ≠ some router)
    (hdelivered : ∀ op ∈ ops, ∀ t, op.recipient ≠ some (t, conduit)
      ∧ op.recipient ≠ some (t, router)) (h : applyAll ops l = some l') :
    Empty conduit router l' := by
  refine ⟨fun t o ho => ?_, fun t o spender ho => ?_⟩
  · have hbal := applyAll_balance h t o
    have hle : net t o ops ≤ 0 := by
      rcases ho with rfl | rfl
      · exact net_nonpos (fun op hop => (hdelivered op hop t).1)
      · exact net_nonpos (fun op hop => (hdelivered op hop t).2)
    rw [hl.balances t o ho] at hbal
    omega
  · have hle : l'.allowance t o spender ≤ l.allowance t o spender := by
      refine applyAll_allowance_le h (fun op hop => ?_)
      rcases ho with rfl | rfl
      · exact (houtsiders op hop).1
      · exact (houtsiders op hop).2
    rw [hl.allowances t o spender ho] at hle
    exact Nat.le_zero.mp hle

/-- **The step.** -/
theorem swapStep {a : SwapStep W usdc conduit router} (hne : conduit ≠ router)
    (hs : Empty conduit router s.ledger) (hcovered : a.Covered)
    (h : swapStep K s a = some s') :
    Empty conduit router s'.ledger ∧ OwnChange a s.ledger s'.ledger := by
  cases a with
  | execute tx => exact hs.execute hne hcovered (toOption_eq_some.mp h)
  | other ops outsiders delivered =>
    obtain ⟨l, hl, rfl⟩ := Option.map_eq_some_iff.mp h
    exact ⟨hs.other outsiders delivered hl, applyAll_balance hl⟩

/-- **The run.** -/
theorem run {history : List (Call (Chain W) (SwapStep W usdc conduit router))}
    (hne : conduit ≠ router) (hs : Empty conduit router s.ledger)
    (h : Run (Conduit.swapStep K) s history s')
    (hcovered : ∀ c ∈ history, c.act.Covered) :
    Empty conduit router s'.ledger
      ∧ ∀ c ∈ history, Empty conduit router c.post.ledger
        ∧ OwnChange c.act c.pre.ledger c.post.ledger := by
  induction h with
  | nil => exact ⟨hs, fun c hc => absurd hc List.not_mem_nil⟩
  | @snoc history s₁ s₂ a hrun hstep ih =>
    obtain ⟨hmid, hbefore⟩ := ih (fun c hc => hcovered c (List.mem_append_left _ hc))
    have hlast := hmid.swapStep hne
      (hcovered ⟨s₁, a, s₂⟩ (List.mem_append_right _ (List.mem_singleton_self _))) hstep
    refine ⟨hlast.1, fun c hc => ?_⟩
    rcases List.mem_append.mp hc with hc | hc
    · exact hbefore c hc
    · rw [List.mem_singleton.mp hc]
      exact hlast

end Empty

/-- **The conduit with its swap-and-deposit target.**  From a state in which neither
contract has any of the three tokens, an execution leaves nothing behind exactly
when it is covered; and in any run of covered executions by any treasuries, with
anything else in between, the contracts are empty in every state and every balance
changes by the operations of the call itself. -/
theorem settled_iff_covered (hne : conduit ≠ router) :
    (∀ (tx : SwapTx W usdc conduit router) (s s' : Chain W), tx.Clean s →
      tx.execute K s = .ok s' → (tx.Settled s s' ↔ tx.Covered))
    ∧ ∀ (s₀ s : Chain W) (history : List (Call (Chain W) (SwapStep W usdc conduit router))),
      Empty conduit router s₀.ledger → Run (swapStep K) s₀ history s →
      (∀ c ∈ history, c.act.Covered) →
      Empty conduit router s.ledger
        ∧ ∀ c ∈ history, Empty conduit router c.post.ledger
          ∧ OwnChange c.act c.pre.ledger c.post.ledger := by
  refine ⟨fun tx s s' hclean h => ?_, fun s₀ s history hs hrun hcovered => ?_⟩
  · obtain ⟨pulled, called, hl⟩ := SwapTx.ledgers_of_execute hne h
    exact (hl.outcome hne).settled_iff hl.tokenIn hclean
  · exact hs.run hne hrun hcovered

end

/-! ### A partial deposit -/

/-- Ten of token `0x4` are swapped at `0x7` for USDC, token `0x6`, and deposited at
`0x8` for treasury `0x1`. -/
def depositArgs : RunArgs := ⟨4, 10, 7, [1], .vault4626, 8, 1, 0⟩

def depositData : Bytes :=
  runSelector ++ beBytes 32 4 ++ beBytes 32 10 ++ beBytes 32 7 ++ beBytes 32 256 ++ beBytes 32 0
    ++ beBytes 32 8 ++ beBytes 32 1 ++ beBytes 32 0 ++ beBytes 32 1 ++ [1] ++ List.replicate 31 0

def depositIntent : Intent := { demoIntent with data := depositData, minOut := 5 }

def depositAuth : Authorization Term :=
  { demoAuth with nonce := intentNonce Keccak.symbolic depositIntent }

/-- The venue delivers nine, and the vault takes `taken` of them for five shares. -/
def depositOps (taken : ℕ) : List (Op Address Address) × List (Op Address Address) :=
  ([.transferFrom 4 7 3 7 10, .transfer 6 7 3 9], [.transferFrom 6 8 3 8 taken, .mint 5 1 5])

theorem mem_depositOps {taken : ℕ} {op : Op Address Address}
    (h : op ∈ outsideOps ⟨6, fun a => decide (a = 7), fun a => decide (a = 8)⟩ depositArgs
      (some (depositOps taken).1) (some (depositOps taken).2)) :
    op = .transferFrom 4 7 3 7 10 ∨ op = .transfer 6 7 3 9 ∨ op = .transferFrom 6 8 3 8 taken
      ∨ op = .mint 5 1 5 := by
  rw [outsideOps, if_pos (by decide)] at h
  simpa [depositOps] using h

def depositTx (taken : ℕ) : SwapTx Term 6 2 3 where
  env := { demoEnv with signed := fun g _ => decide (g = depositAuth.grant 2) }
  auth := depositAuth
  quorumSignature := []
  intent := depositIntent
  args := depositArgs
  venues a := decide (a = 7)
  dests a := decide (a = 8)
  swap := some (depositOps taken).1
  deposit := some (depositOps taken).2
  unsigned g signature hg := by
    refine decide_eq_false ?_
    rintro rfl
    exact absurd hg (by decide)
  target := rfl
  decoded := by decide +kernel
  beneficiary := rfl
  tokenIn := rfl
  outsiders op hop := by
    rcases mem_depositOps hop with rfl | rfl | rfl | rfl <;> simp [Op.actor]
  delivered op hop t ht := by
    rcases mem_depositOps hop with rfl | rfl | rfl | rfl <;> simp [Op.recipient] at ht
    simp [ht]

/-- The venue has a hundred USDC. -/
def depositChain : Chain Term :=
  { demoChain 0 with ledger := (demoChain 0).ledger.setBalance 6 7 100 }

theorem depositChain_clean (taken : ℕ) : (depositTx taken).Clean depositChain := by
  rintro t (rfl | rfl | rfl) <;> exact ⟨rfl, rfl⟩

/-- What the conduit has of USDC after the execution. -/
def depositLeft (taken : ℕ) : Option ℕ :=
  ((depositTx taken).execute Keccak.symbolic depositChain).toOption.map
    (fun s => s.ledger.balance 6 2)

theorem exists_of_depositLeft {taken n : ℕ} (h : depositLeft taken = some n) :
    ∃ s', (depositTx taken).execute Keccak.symbolic depositChain = .ok s'
      ∧ s'.ledger.balance 6 2 = n := by
  obtain ⟨s', hs', hn⟩ := Option.map_eq_some_iff.mp h
  exact ⟨s', toOption_eq_some.mp hs', hn⟩

theorem settled_iff_covered_full :
    ∃ s', (depositTx 9).execute Keccak.symbolic depositChain = .ok s'
      ∧ (depositTx 9).Settled depositChain s' := by
  obtain ⟨s', hok, -⟩ := exists_of_depositLeft (by decide +kernel : depositLeft 9 = some 0)
  have hcovered : (depositTx 9).Covered := .inr (.inr (by decide))
  exact ⟨s', hok, ((settled_iff_covered (by decide)).1 (depositTx 9) depositChain s'
    (depositChain_clean 9) hok).mpr hcovered⟩

/-- **Four of nine USDC stay in the conduit.** -/
theorem not_settled_partial :
    (depositTx 5).Clean depositChain
      ∧ ∃ s', (depositTx 5).execute Keccak.symbolic depositChain = .ok s'
        ∧ s'.ledger.balance 6 2 = 4 ∧ ¬(depositTx 5).Settled depositChain s' := by
  obtain ⟨s', hok, hleft⟩ := exists_of_depositLeft (by decide +kernel : depositLeft 5 = some 4)
  refine ⟨depositChain_clean 5, s', hok, hleft, fun h => ?_⟩
  have hzero := (h.clean 6 (.inr (.inl rfl))).1
  rw [hleft] at hzero
  cases hzero

end Bufi.Conduit
