import Bufi.Conduit.Execute

/-!
# What an execution leaves behind

`Stages` takes a successful `execute` apart: the checks, the pull, the call and the
sweeps.  The call is made by anybody but the conduit, and from within it the conduit
can only be rescued from or governed: the guard refuses another `execute`
(`effect_of_act`).  Every result about a call is an induction over its actions with
one case for each `Effect`.

A target may hold an allowance of the treasury, or a second authorization that the
treasury has signed; what it draws under them it draws besides the intent (`drawn`).
-/

namespace Bufi.Conduit

open Bufi.Evm Bufi.Evm.Erc20

/-! ### Stages -/

section

variable {W : Type} [DecidableEq W] {K : Keccak W} {E : Env W} {conduit : Address}
  {auth : Authorization W} {quorumSignature : Bytes} {intent : Intent}
  {call : Chain W → Option (Chain W)} {s s' : Chain W}

/-- The states that a successful execution goes through. -/
structure Stages (K : Keccak W) (E : Env W) (conduit : Address) (auth : Authorization W)
    (quorumSignature : Bytes) (intent : Intent) (call : Chain W → Option (Chain W))
    (s pulled called swept : Chain W) : Prop where
  free : s.entered = false
  beneficiary : intent.beneficiary = auth.from'
  tokenIn : intent.tokenIn = auth.token
  amountIn : intent.amountIn = auth.value
  nonce : auth.nonce = intentNonce K intent
  deadline : ¬intent.deadline < E.timestamp
  registered : s.targets intent.target = true
  pull : redeem E (auth.grant conduit) quorumSignature { s with entered := true } = some pulled
  call : call (forceApprove intent.tokenIn conduit intent.target intent.amountIn.toNat pulled)
    = some called
  sweep : sweepBoth conduit intent auth.from'
    (forceApprove intent.tokenIn conduit intent.target 0 called) = some swept
  floor : s.ledger.balance intent.tokenOut auth.from' + intent.minOut.toNat
    ≤ swept.ledger.balance intent.tokenOut auth.from'

theorem execute_eq_ok :
    execute K E conduit auth quorumSignature intent call s = .ok s'
      ↔ ∃ pulled called swept,
        Stages K E conduit auth quorumSignature intent call s pulled called swept
        ∧ s' = { swept with entered := false } := by
  simp only [execute, checkIntent, bind_eq_ok, require_eq_ok, orRevert_eq_ok, exists_const,
    pure_eq_ok, checkedSub, Option.ite_none_right_eq_some, Option.some.injEq]
  constructor
  · rintro ⟨hfree, ⟨hben, htok, hamt, hnonce, hdead, hreg⟩, pulled, hpull, called, hcall, swept,
      hsweep, gained, ⟨hle, rfl⟩, hfloor, rfl⟩
    exact ⟨pulled, called, swept,
      ⟨hfree, hben, htok, hamt, hnonce, hdead, hreg, hpull, hcall, hsweep, by omega⟩, rfl⟩
  · rintro ⟨pulled, called, swept, ⟨hfree, hben, htok, hamt, hnonce, hdead, hreg, hpull, hcall,
      hsweep, hfloor⟩, rfl⟩
    exact ⟨hfree, ⟨hben, htok, hamt, hnonce, hdead, hreg⟩, pulled, hpull, called, hcall, swept,
      hsweep, _, ⟨by omega, rfl⟩, by omega, rfl⟩

omit [DecidableEq W] in
/-- **The nonce commits to all ten fields.** -/
theorem intentNonce_injective {i j : Intent} (h : intentNonce K i = intentNonce K j) : i = j := by
  have hwords := K.hashWords_inj h
  simp only [List.cons.injEq, and_true, true_and] at hwords
  obtain ⟨htarget, hdata, htin, hain, htout, hmin, hben, hdead, hid, hmemo⟩ := hwords
  cases i
  cases j
  rw [Intent.mk.injEq]
  exact ⟨K.addr_inj htarget, K.hash_inj hdata, K.addr_inj htin, K.word_inj hain, K.addr_inj htout,
    K.word_inj hmin, K.addr_inj hben, K.word_inj hdead, K.word_inj hid, K.hash_inj hmemo⟩

/-! ### Pulls and sweeps -/

theorem redeem_eq_some {g : Grant W} {signature : Bytes} :
    redeem E g signature s = some s'
      ↔ (g.validAfter < E.timestamp ∧ E.timestamp < g.validBefore
          ∧ s.used g.token g.from' g.nonce = false ∧ E.signed g signature = true)
        ∧ ∃ l, s.ledger.move g.token g.from' g.to' g.value.toNat = some l
          ∧ s' = { useNonce s g.token g.from' g.nonce with ledger := l } := by
  rw [redeem, Option.ite_none_right_eq_some, Option.map_eq_some_iff]
  simp only [eq_comm]

theorem useNonce_used {token from' : Address} {nonce : W} :
    (useNonce s token from' nonce).used token from' nonce = true := if_pos ⟨rfl, rfl, rfl⟩

theorem useNonce_mono {token from' t f : Address} {nonce n : W} (h : s.used t f n = true) :
    (useNonce s token from' nonce).used t f n = true := by
  simp only [useNonce]
  split_ifs
  · rfl
  · exact h

/-- What a holder has left of the tokens in `swept`, and what the recipient gets. -/
structure Swept (swept : Address → Prop) [DecidablePred swept] (holder to' : Address)
    (l l' : Ledger Address Address) : Prop where
  allowance : l'.allowance = l.allowance
  held : ∀ t, l'.balance t holder = if swept t then 0 else l.balance t holder
  received : ∀ t, l'.balance t to'
    = l.balance t to' + if swept t then l.balance t holder else 0
  other : ∀ t a, a ≠ holder → a ≠ to' → l'.balance t a = l.balance t a

theorem sweep_spec {holder token to' : Address} {l l' : Ledger Address Address}
    (hne : holder ≠ to') (h : sweep holder token to' l = some l') :
    Swept (· = token) holder to' l l' := by
  have hbal : l'.allowance = l.allowance ∧ ∀ t a, (l'.balance t a : ℤ)
      = l.balance t a - amountAt token t holder a (l.balance token holder)
        + amountAt token t to' a (l.balance token holder) := by
    rw [Conduit.sweep] at h
    split_ifs at h with hpos
    · exact ⟨(move_eq_some h).2.1, (move_eq_some h).2.2⟩
    · obtain rfl := Option.some.inj h
      have hzero : l.balance token holder = 0 := by omega
      refine ⟨rfl, fun t a => ?_⟩
      simp [amountAt, hzero]
  refine ⟨hbal.1, fun t => ?_, fun t => ?_, fun t a ha ha' => ?_⟩
  · have hb := hbal.2 t holder
    simp only [amountAt, hne, and_false, if_false, and_true] at hb
    split_ifs at hb ⊢ with ht
    · subst ht
      omega
    · omega
  · have hb := hbal.2 t to'
    simp only [amountAt, hne.symm, and_false, if_false, and_true] at hb
    split_ifs at hb ⊢ with ht
    · subst ht
      omega
    · omega
  · have hb := hbal.2 t a
    simp only [amountAt, ha, ha', and_false, if_false] at hb
    omega

/-- One sweep after another. -/
theorem Swept.trans {p q : Address → Prop} [DecidablePred p] [DecidablePred q]
    {holder to' : Address} {l m l' : Ledger Address Address} (h : Swept p holder to' l m)
    (h' : Swept q holder to' m l') : Swept (fun t => p t ∨ q t) holder to' l l' where
  allowance := h'.allowance.trans h.allowance
  held t := by
    rw [h'.held, h.held]
    by_cases hp : p t <;> by_cases hq : q t <;> simp [hp, hq]
  received t := by
    rw [h'.received, h.received, h.held]
    by_cases hp : p t <;> by_cases hq : q t <;> simp [hp, hq]
  other t a ha ha' := (h'.other t a ha ha').trans (h.other t a ha ha')

/-- A second sweep, which is left out where the tokens are the same. -/
theorem Swept.second {p q holder to' : Address} {differ : Prop} [Decidable differ]
    {l m l' : Ledger Address Address} (hne : holder ≠ to') (hdiffer : differ ↔ p ≠ q)
    (h : Swept (· = p) holder to' l m)
    (h' : (if differ then sweep holder q to' m else some m) = some l') :
    Swept (fun t => t = p ∨ t = q) holder to' l l' := by
  split_ifs at h' with hd
  · exact h.trans (sweep_spec hne h')
  · obtain rfl := Option.some.inj h'
    have hsame : p = q := by
      by_contra hpq
      exact hd (hdiffer.mpr hpq)
    have hiff : ∀ t, (t = p ∨ t = q) ↔ t = p := by
      intro t
      rw [← hsame, or_self]
    refine ⟨h.allowance, fun t => ?_, fun t => ?_, h.other⟩
    · simp only [hiff]
      exact h.held t
    · simp only [hiff]
      exact h.received t

omit [DecidableEq W] in
theorem sweepBoth_spec {to' : Address} (hne : conduit ≠ to')
    (h : sweepBoth conduit intent to' s = some s') :
    s' = { s with ledger := s'.ledger }
      ∧ Swept (fun t => t = intent.tokenIn ∨ t = intent.tokenOut) conduit to' s.ledger
        s'.ledger := by
  obtain ⟨l, hl, rfl⟩ := Option.map_eq_some_iff.mp h
  obtain ⟨m, hin, hout⟩ := Option.bind_eq_some_iff.mp hl
  exact ⟨rfl, (sweep_spec hne hin).second hne ne_comm hout⟩

/-! ### What happens within a call -/

/-- The effects of an action other than `execute`. -/
inductive Effect (E : Env W) (conduit : Address) : Action W → Chain W → Chain W → Prop
  | token {s : Chain W} {op : Op Address Address} {l : Ledger Address Address}
      (hactor : op.actor ≠ some conduit) (happly : op.apply s.ledger = some l) :
      Effect E conduit (.token op) s { s with ledger := l }
  | redeemed {s s' : Chain W} {g : Grant W} {signature : Bytes}
      (hto : g.kind = .receiveWithAuthorization → g.to' ≠ conduit)
      (hredeem : redeem E g signature s = some s') : Effect E conduit (.redeem g signature) s s'
  | cancelled {s : Chain W} {token authorizer : Address} {nonce : W} {signature : Bytes} :
      Effect E conduit (.cancelAuthorization token authorizer nonce signature) s
        (useNonce s token authorizer nonce)
  | rescued {s : Chain W} {sender token to' : Address} {amount : ℕ} {l : Ledger Address Address}
      (hmove : s.ledger.move token conduit to' amount = some l) :
      Effect E conduit (.rescue sender token to') s { s with ledger := l }
  | governed {a : Action W} {s : Chain W} {targets : Address → Bool} {owner pendingOwner : Address} :
      Effect E conduit a s { s with targets, owner, pendingOwner }

/-- **What an action can do.** -/
theorem act_cases {a : Action W} (h : act K E conduit a s = .ok s') :
    Effect E conduit a s s'
      ∨ ∃ auth quorumSignature intent calls pulled called swept,
        a = .execute auth quorumSignature intent calls
        ∧ Stages K E conduit auth quorumSignature intent (actAll K E conduit calls) s pulled called
          swept
        ∧ s' = { swept with entered := false } := by
  cases a with
  | token op =>
    simp only [act, bind_eq_ok, require_eq_ok, exists_const, orRevert_eq_ok, pure_eq_ok] at h
    obtain ⟨hactor, l, hl, rfl⟩ := h
    exact .inl (.token hactor hl)
  | redeem g signature =>
    simp only [act, bind_eq_ok, require_eq_ok, exists_const, orRevert_eq_ok] at h
    exact .inl (.redeemed h.1 h.2)
  | cancelAuthorization token authorizer nonce signature =>
    simp only [act, bind_eq_ok, require_eq_ok, exists_const, pure_eq_ok] at h
    obtain ⟨-, rfl⟩ := h
    exact .inl .cancelled
  | rescue sender token to' =>
    simp only [act, rescue, bind_eq_ok, require_eq_ok, exists_const, orRevert_eq_ok,
      pure_eq_ok] at h
    obtain ⟨-, -, l, hl, rfl⟩ := h
    exact .inl (.rescued hl)
  | setTarget sender target allowed =>
    simp only [act, bind_eq_ok, require_eq_ok, exists_const, pure_eq_ok] at h
    obtain ⟨-, rfl⟩ := h
    exact .inl .governed
  | transferOwnership sender newOwner =>
    simp only [act, bind_eq_ok, require_eq_ok, exists_const, pure_eq_ok] at h
    obtain ⟨-, rfl⟩ := h
    exact .inl .governed
  | acceptOwnership sender =>
    simp only [act, bind_eq_ok, require_eq_ok, exists_const, pure_eq_ok] at h
    obtain ⟨-, rfl⟩ := h
    exact .inl .governed
  | renounceOwnership sender =>
    simp only [act, bind_eq_ok, require_eq_ok, exists_const, pure_eq_ok] at h
    obtain ⟨-, rfl⟩ := h
    exact .inl .governed
  | execute auth quorumSignature intent calls =>
    rw [act, execute_eq_ok] at h
    obtain ⟨pulled, called, swept, hst, rfl⟩ := h
    exact .inr ⟨auth, quorumSignature, intent, calls, pulled, called, swept, rfl, hst, rfl⟩

/-- Within a call the guard refuses another `execute`. -/
theorem effect_of_act {a : Action W} (hentered : s.entered = true)
    (h : act K E conduit a s = .ok s') : Effect E conduit a s s' := by
  rcases act_cases h with heffect | ⟨auth, signature, intent, calls, p, c, w, rfl, hst, -⟩
  · exact heffect
  · rw [hst.free] at hentered
    cases hentered

theorem Effect.entered {a : Action W} (h : Effect E conduit a s s') : s'.entered = s.entered := by
  cases h with
  | redeemed _ hredeem =>
    obtain ⟨-, l, -, rfl⟩ := redeem_eq_some.mp hredeem
    rfl
  | token | cancelled | rescued | governed => rfl

theorem Effect.used {a : Action W} (h : Effect E conduit a s s') {t f : Address} {n : W}
    (hused : s.used t f n = true) : s'.used t f n = true := by
  cases h with
  | redeemed _ hredeem =>
    obtain ⟨-, l, -, rfl⟩ := redeem_eq_some.mp hredeem
    exact useNonce_mono hused
  | cancelled => exact useNonce_mono hused
  | token | rescued | governed => exact hused

/-- **The rule for calls.**  What every effect of an action in a call keeps, the call
keeps. -/
theorem actAll_invariant {P : Chain W → Prop} {calls : List (Action W)}
    (hentered : s.entered = true) (hs : P s)
    (hstep : ∀ a ∈ calls, ∀ s s', Effect E conduit a s s' → P s → P s')
    (h : actAll K E conduit calls s = some s') : P s' := by
  induction calls generalizing s with
  | nil =>
    rw [actAll] at h
    rwa [← Option.some.inj h]
  | cons a rest ih =>
    rw [actAll] at h
    obtain ⟨m, hm, hrest⟩ := Option.bind_eq_some_iff.mp h
    have heffect := effect_of_act hentered (toOption_eq_some.mp hm)
    exact ih (heffect.entered.trans hentered) (hstep a List.mem_cons_self s m heffect hs)
      (fun a' ha' => hstep a' (List.mem_cons_of_mem _ ha')) hrest

theorem actAll_used {calls : List (Action W)} (hentered : s.entered = true)
    (h : actAll K E conduit calls s = some s') {t f : Address} {n : W}
    (hused : s.used t f n = true) : s'.used t f n = true :=
  actAll_invariant hentered hused (fun _ _ _ _ heffect hu => heffect.used hu) h

/-! ### What a call draws from the treasury -/

/-- What an action takes of a token from `treasury` under an allowance or an
authorization of the treasury. -/
def Action.drawn (token treasury : Address) : Action W → ℕ
  | .token (.transferFrom t _ owner _ amount) => if t = token ∧ owner = treasury then amount else 0
  | .redeem g _ => if g.token = token ∧ g.from' = treasury then g.value.toNat else 0
  | _ => 0

def drawn (token treasury : Address) (calls : List (Action W)) : ℕ :=
  (calls.map (Action.drawn token treasury)).sum

/-- The treasury itself does not act. -/
def Foreign (treasury : Address) (calls : List (Action W)) : Prop :=
  ∀ op, .token op ∈ calls → op.actor ≠ some treasury

/-- The treasury has no allowance of a token outstanding and has signed no
authorization of it but one. -/
structure NothingGranted (E : Env W) (token treasury : Address) (nonce : W)
    (l : Ledger Address Address) : Prop where
  allowance : ∀ spender, l.allowance token treasury spender = 0
  signed : ∀ g signature, g.token = token → g.from' = treasury → E.signed g signature = true →
    g.nonce = nonce

omit [DecidableEq W] in
theorem le_balance_add_delta {token treasury : Address} {op : Op Address Address}
    (hactor : op.actor ≠ some treasury) :
    0 ≤ op.delta token treasury + (Action.token (W := W) op).drawn token treasury := by
  cases op with
  | transfer t sender recipient amount =>
    have hne : treasury ≠ sender := fun he => hactor (he ▸ rfl)
    simp only [Op.delta, amountAt, Action.drawn, hne, and_false, if_false]
    split_ifs <;> omega
  | transferFrom t spender owner recipient amount =>
    simp only [Op.delta, amountAt, Action.drawn, eq_comm]
    split_ifs <;> omega
  | approve t owner spender amount => exact le_rfl
  | mint t recipient amount =>
    simp only [Op.delta, amountAt, Action.drawn]
    split_ifs <;> omega
  | burn t holder amount =>
    have hne : treasury ≠ holder := fun he => hactor (he ▸ rfl)
    simp only [Op.delta, amountAt, Action.drawn, hne, and_false, if_false]
    omega

theorem Effect.le_balance {a : Action W} {token treasury : Address} (hne : treasury ≠ conduit)
    (h : Effect E conduit a s s') (hforeign : ∀ op, a = .token op → op.actor ≠ some treasury) :
    s.ledger.balance token treasury
      ≤ s'.ledger.balance token treasury + a.drawn token treasury := by
  cases h with
  | @token _ op l hactor happly =>
    have hbal := apply_balance happly token treasury
    have hdelta : 0 ≤ op.delta token treasury + (Action.token (W := W) op).drawn token treasury :=
      le_balance_add_delta (hforeign op rfl)
    dsimp only
    omega
  | @redeemed _ _ g signature hto hredeem =>
    obtain ⟨-, l, hmove, rfl⟩ := redeem_eq_some.mp hredeem
    have hbal := (move_eq_some hmove).2.2 token treasury
    simp only [amountAt, Action.drawn, eq_comm] at hbal ⊢
    split_ifs at hbal ⊢ <;> omega
  | @rescued _ sender t to' amount l hmove =>
    have hbal := (move_eq_some hmove).2.2 token treasury
    simp only [amountAt, hne, and_false, if_false] at hbal
    dsimp only
    split_ifs at hbal <;> omega
  | cancelled | governed => exact Nat.le_add_right _ _

theorem actAll_le_balance {token treasury : Address} (hne : treasury ≠ conduit)
    {calls : List (Action W)} (hentered : s.entered = true) (hforeign : Foreign treasury calls)
    (h : actAll K E conduit calls s = some s') :
    s.ledger.balance token treasury
      ≤ s'.ledger.balance token treasury + drawn token treasury calls := by
  induction calls generalizing s with
  | nil =>
    rw [actAll] at h
    rw [Option.some.inj h]
    exact Nat.le_add_right _ _
  | cons a rest ih =>
    rw [actAll] at h
    obtain ⟨m, hm, hrest⟩ := Option.bind_eq_some_iff.mp h
    have heffect := effect_of_act hentered (toOption_eq_some.mp hm)
    have hfirst : s.ledger.balance token treasury
        ≤ m.ledger.balance token treasury + a.drawn token treasury :=
      heffect.le_balance hne (fun op hop => hforeign op (hop ▸ List.mem_cons_self))
    have hlater := ih (heffect.entered.trans hentered)
      (fun op hop => hforeign op (List.mem_cons_of_mem _ hop)) hrest
    rw [drawn, List.map_cons, List.sum_cons]
    rw [drawn] at hlater
    omega

/-- Where nothing else is granted, nothing is drawn. -/
theorem actAll_le_balance_of_nothingGranted {token treasury : Address} {nonce : W}
    (hne : treasury ≠ conduit) {calls : List (Action W)} (hentered : s.entered = true)
    (hforeign : Foreign treasury calls) (hused : s.used token treasury nonce = true)
    (hgrant : NothingGranted E token treasury nonce s.ledger)
    (h : actAll K E conduit calls s = some s') :
    s.ledger.balance token treasury ≤ s'.ledger.balance token treasury := by
  have hinv : s'.used token treasury nonce = true
      ∧ (∀ spender, s'.ledger.allowance token treasury spender = 0)
      ∧ s.ledger.balance token treasury ≤ s'.ledger.balance token treasury := by
    refine actAll_invariant (P := fun m => m.used token treasury nonce = true
      ∧ (∀ spender, m.ledger.allowance token treasury spender = 0)
      ∧ s.ledger.balance token treasury ≤ m.ledger.balance token treasury)
      hentered ⟨hused, hgrant.allowance, le_rfl⟩ ?_ h
    rintro a ha m m' heffect ⟨hu, hallow, hle⟩
    refine ⟨heffect.used hu, ?_⟩
    cases heffect with
    | @token _ op l hactor happly =>
      have hop := hforeign op ha
      refine ⟨fun spender => ?_, hle.trans (le_balance_of_apply happly hop hallow)⟩
      exact Nat.le_zero.mp (hallow spender ▸ apply_allowance_le happly (ne_approve hop))
    | @redeemed _ _ g signature hto hredeem =>
      obtain ⟨⟨-, -, hunused, hsigned⟩, l, hmove, rfl⟩ := redeem_eq_some.mp hredeem
      obtain ⟨-, hallowance, hbal⟩ := move_eq_some hmove
      refine ⟨fun spender => ?_, ?_⟩
      · show l.allowance token treasury spender = 0
        rw [hallowance]
        exact hallow spender
      · have hother : ¬(token = g.token ∧ treasury = g.from') := by
          rintro ⟨ht, hf⟩
          rw [hgrant.signed g signature ht.symm hf.symm hsigned, ← ht, ← hf, hu] at hunused
          cases hunused
        have hb := hbal token treasury
        simp only [amountAt, hother, if_false] at hb
        dsimp only [useNonce]
        split_ifs at hb <;> omega
    | @rescued _ sender t to' amount l hmove =>
      obtain ⟨-, hallowance, hbal⟩ := move_eq_some hmove
      refine ⟨fun spender => ?_, ?_⟩
      · show l.allowance token treasury spender = 0
        rw [hallowance]
        exact hallow spender
      · have hb := hbal token treasury
        simp only [amountAt, hne, and_false, if_false] at hb
        dsimp only
        split_ifs at hb <;> omega
    | cancelled | governed => exact ⟨hallow, hle⟩
  exact hinv.2.2

/-! ### Whole executions -/

namespace Stages

variable {pulled called swept : Chain W}

theorem pulled_eq (h : Stages K E conduit auth quorumSignature intent call s pulled called swept) :
    E.signed (auth.grant conduit) quorumSignature = true
      ∧ s.used auth.token auth.from' auth.nonce = false
      ∧ ∃ l, s.ledger.move auth.token auth.from' conduit auth.value.toNat = some l
        ∧ pulled = { useNonce s auth.token auth.from' auth.nonce with ledger := l, entered := true } := by
  obtain ⟨⟨-, -, hunused, hsigned⟩, l, hmove, hpulled⟩ := redeem_eq_some.mp h.pull
  exact ⟨hsigned, hunused, l, hmove, hpulled⟩

/-- The conduit signs nothing, so the treasury is somebody else. -/
theorem treasury_ne (h : Stages K E conduit auth quorumSignature intent call s pulled called swept)
    (hE : ∀ g signature, g.from' = conduit → E.signed g signature = false) :
    auth.from' ≠ conduit := by
  intro he
  have hsigned := h.pulled_eq.1
  rw [hE _ _ he] at hsigned
  cases hsigned

theorem swept_spec (h : Stages K E conduit auth quorumSignature intent call s pulled called swept)
    (hne : auth.from' ≠ conduit) :
    swept = { called with ledger := swept.ledger }
      ∧ Swept (fun t => t = intent.tokenIn ∨ t = intent.tokenOut) conduit auth.from'
        (called.ledger.setAllowance intent.tokenIn conduit intent.target 0) swept.ledger := by
  have hspec := sweepBoth_spec hne.symm h.sweep
  exact hspec

end Stages

variable {calls : List (Action W)} {pulled called swept : Chain W}

theorem Stages.used
    (h : Stages K E conduit auth quorumSignature intent (actAll K E conduit calls) s pulled called
      swept) {t f : Address} {n : W}
    (hused : s.used t f n = true ∨ (t, f, n) = (auth.token, auth.from', auth.nonce)) :
    swept.used t f n = true := by
  obtain ⟨-, -, l, -, rfl⟩ := h.pulled_eq
  have hpulled : (useNonce s auth.token auth.from' auth.nonce).used t f n = true := by
    rcases hused with hused | heq
    · exact useNonce_mono hused
    · obtain ⟨rfl, rfl, rfl⟩ := heq
      exact useNonce_used
  have hcalled := actAll_used (t := t) (f := f) (n := n) rfl h.call hpulled
  obtain ⟨l', -, rfl⟩ := Option.map_eq_some_iff.mp h.sweep
  exact hcalled

/-! ### Runs -/

/-- A transaction, with what it finds. -/
def step (K : Keccak W) (conduit : Address) (s : Chain W) (tx : Env W × Action W) :
    Option (Chain W) :=
  (act K tx.1 conduit tx.2 s).toOption

/-- No transaction frees a nonce. -/
theorem step_used {tx : Env W × Action W} (h : step K conduit s tx = some s') {t f : Address}
    {n : W} (hused : s.used t f n = true) : s'.used t f n = true := by
  rcases act_cases (toOption_eq_some.mp h) with heffect | ⟨_, _, _, _, _, _, _, -, hst, rfl⟩
  · exact heffect.used hused
  · exact hst.used (.inl hused)

theorem run_used {history : List (Call (Chain W) (Env W × Action W))}
    (h : Run (step K conduit) s history s') {t f : Address} {n : W}
    (hused : s.used t f n = true) : s'.used t f n = true :=
  h.invariant hused (fun _ _ _ hs hstep => step_used hstep hs)

/-! ### The guarantees of an execution -/

/-- One pull of the input, then the call of the target, then the sweeps. -/
structure PulledOnce (K : Keccak W) (E : Env W) (conduit : Address) (auth : Authorization W)
    (intent : Intent) (calls : List (Action W)) (s pulled called s' : Chain W) : Prop where
  unused : s.used auth.token auth.from' auth.nonce = false
  used : pulled.used auth.token auth.from' auth.nonce = true
  paid : pulled.ledger.balance intent.tokenIn auth.from' + intent.amountIn.toNat
    = s.ledger.balance intent.tokenIn auth.from'
  received : pulled.ledger.balance intent.tokenIn conduit
    = s.ledger.balance intent.tokenIn conduit + intent.amountIn.toNat
  ran : actAll K E conduit calls
    (forceApprove intent.tokenIn conduit intent.target intent.amountIn.toNat pulled) = some called
  back : s'.ledger.balance intent.tokenIn auth.from'
    = called.ledger.balance intent.tokenIn auth.from' + called.ledger.balance intent.tokenIn conduit

/-- What a treasury can rely on after an execution. -/
structure ExecuteSafe (K : Keccak W) (E : Env W) (conduit : Address) (auth : Authorization W)
    (quorumSignature : Bytes) (intent : Intent) (calls : List (Action W)) (s s' : Chain W) :
    Prop where
  signed : E.signed (auth.grant conduit) quorumSignature = true
  nonce : auth.nonce = intentNonce K intent
  only : ∀ other, auth.nonce = intentNonce K other → other = intent
  fields : intent.beneficiary = auth.from' ∧ intent.tokenIn = auth.token
    ∧ intent.amountIn = auth.value
  pulled : ∃ pulled called, PulledOnce K E conduit auth intent calls s pulled called s'
  used : s'.used auth.token auth.from' auth.nonce = true
  tokenIn : s'.ledger.balance intent.tokenIn conduit = 0
  tokenOut : s'.ledger.balance intent.tokenOut conduit = 0
  allowance : s'.ledger.allowance intent.tokenIn conduit intent.target = 0
  floor : s.ledger.balance intent.tokenOut auth.from' + intent.minOut.toNat
    ≤ s'.ledger.balance intent.tokenOut auth.from'
  spent : Foreign auth.from' calls → s.ledger.balance intent.tokenIn auth.from'
    ≤ s'.ledger.balance intent.tokenIn auth.from' + intent.amountIn.toNat
      + drawn intent.tokenIn auth.from' calls
  spent_alone : Foreign auth.from' calls →
    NothingGranted E intent.tokenIn auth.from' auth.nonce s.ledger →
    s.ledger.balance intent.tokenIn auth.from'
      ≤ s'.ledger.balance intent.tokenIn auth.from' + intent.amountIn.toNat

theorem Stages.pulledOnce (hne : auth.from' ≠ conduit)
    (h : Stages K E conduit auth quorumSignature intent (actAll K E conduit calls) s pulled called
      swept) :
    PulledOnce K E conduit auth intent calls s pulled called { swept with entered := false } := by
  obtain ⟨-, hunused, l, hmove, rfl⟩ := h.pulled_eq
  obtain ⟨hle, -, hbal⟩ := move_eq_some hmove
  have htreasury := hbal auth.token auth.from'
  have hconduit := hbal auth.token conduit
  simp only [amountAt, hne, hne.symm, and_false, and_self, if_true, if_false] at htreasury hconduit
  rw [← h.tokenIn, ← h.amountIn] at htreasury hconduit hle
  refine ⟨hunused, useNonce_used, ?_, ?_, h.call, ?_⟩
  · dsimp only
    omega
  · dsimp only
    omega
  · have hback := (h.swept_spec hne).2.received intent.tokenIn
    rw [if_pos (.inl rfl)] at hback
    exact hback

theorem Stages.executeSafe (hne : auth.from' ≠ conduit)
    (h : Stages K E conduit auth quorumSignature intent (actAll K E conduit calls) s pulled called
      swept) :
    ExecuteSafe K E conduit auth quorumSignature intent calls s { swept with entered := false } := by
  have honce := h.pulledOnce hne
  have hentered : (forceApprove intent.tokenIn conduit intent.target intent.amountIn.toNat
      pulled).entered = true := by
    obtain ⟨-, -, l, -, rfl⟩ := h.pulled_eq
    rfl
  obtain ⟨-, hswept⟩ := h.swept_spec hne
  have hpaid := honce.paid
  have hback := honce.back
  refine ⟨h.pulled_eq.1, h.nonce, ?_, ⟨h.beneficiary, h.tokenIn, h.amountIn⟩,
    ⟨pulled, called, honce⟩, h.used (.inr rfl), ?_, ?_, ?_, h.floor, ?_, ?_⟩
  · intro other ho
    exact intentNonce_injective (K := K) (ho ▸ h.nonce)
  · exact (hswept.held _).trans (if_pos (.inl rfl))
  · exact (hswept.held _).trans (if_pos (.inr rfl))
  · show swept.ledger.allowance _ _ _ = 0
    rw [hswept.allowance]
    exact if_pos ⟨rfl, rfl, rfl⟩
  · intro hforeign
    have hle : (forceApprove intent.tokenIn conduit intent.target intent.amountIn.toNat
        pulled).ledger.balance intent.tokenIn auth.from'
        ≤ called.ledger.balance intent.tokenIn auth.from' + drawn intent.tokenIn auth.from' calls :=
      actAll_le_balance hne hentered hforeign h.call
    rw [forceApprove, setAllowance_balance] at hle
    omega
  · intro hforeign hgrant
    have hpulled : NothingGranted E intent.tokenIn auth.from' auth.nonce
        (forceApprove intent.tokenIn conduit intent.target intent.amountIn.toNat pulled).ledger := by
      refine ⟨fun spender => ?_, hgrant.signed⟩
      obtain ⟨-, -, l, hmove, rfl⟩ := h.pulled_eq
      simp only [forceApprove, Ledger.setAllowance, hne, false_and, and_false, if_false]
      rw [(move_eq_some hmove).2.1]
      exact hgrant.allowance spender
    have hle : (forceApprove intent.tokenIn conduit intent.target intent.amountIn.toNat
        pulled).ledger.balance intent.tokenIn auth.from'
        ≤ called.ledger.balance intent.tokenIn auth.from' :=
      actAll_le_balance_of_nothingGranted hne hentered hforeign (h.tokenIn ▸ honce.used) hpulled
        h.call
    rw [forceApprove, setAllowance_balance] at hle
    omega

/-- **Every execution.**  For any target, any authorization and any intent, where the
conduit has no signature of its own: an execution that succeeds is safe and cannot
be repeated for the same treasury and intent, after any run; one that does not
changes nothing. -/
theorem execute_safe {E : Env W}
    (hE : ∀ g signature, g.from' = conduit → E.signed g signature = false)
    (auth : Authorization W) (quorumSignature : Bytes) (intent : Intent)
    (calls : List (Action W)) (s : Chain W) :
    (∀ s', act K E conduit (.execute auth quorumSignature intent calls) s = .ok s' →
      ExecuteSafe K E conduit auth quorumSignature intent calls s s'
      ∧ ∀ history later, Run (step K conduit) s' history later →
        ∀ E' auth' signature' calls', auth'.from' = auth.from' →
          step K conduit later (E', .execute auth' signature' intent calls') = none)
    ∧ ∀ e, act K E conduit (.execute auth quorumSignature intent calls) s = .error e →
      afterAttempts (step K conduit) s [(E, .execute auth quorumSignature intent calls)] = s := by
  refine ⟨fun s' h => ?_, fun e h => ?_⟩
  · rw [act, execute_eq_ok] at h
    obtain ⟨pulled, called, swept, hst, rfl⟩ := h
    have hsafe := hst.executeSafe (hst.treasury_ne hE)
    refine ⟨hsafe, ?_⟩
    intro history later hrun E' auth' signature' calls' hfrom
    rw [Option.eq_none_iff_forall_ne_some]
    intro s'' hsecond
    have hsecond := toOption_eq_some.mp hsecond
    rw [act, execute_eq_ok] at hsecond
    obtain ⟨pulled', called', swept', hst', -⟩ := hsecond
    have hunused := hst'.pulled_eq.2.1
    rw [← hst'.tokenIn, hfrom, hst'.nonce, ← hst.nonce, hst.tokenIn,
      run_used hrun hsafe.used] at hunused
    cases hunused
  · rw [afterAttempts, afterAttempts, step, h]
    rfl

end

/-! ### Two executions -/

/-- Treasury `0x1` gives ten of token `0x4` through conduit `0x2` to target `0x3`
for at least seven of token `0x5`. -/
def demoIntent : Intent where
  target := 3
  data := []
  tokenIn := 4
  amountIn := 10
  tokenOut := 5
  minOut := 7
  beneficiary := 1
  deadline := 500
  memoId := 0
  memo := []

def demoAuth : Authorization Term := ⟨4, 1, 10, 0, 1000, intentNonce Keccak.symbolic demoIntent⟩

def demoEnv : Env Term where
  timestamp := 100
  signed g _ := decide (g = demoAuth.grant 2)
  cancelled _ _ _ _ := false

/-- The treasury has a hundred, and an allowance of `allowed` for the target. -/
def demoChain (allowed : ℕ) : Chain Term where
  ledger := Ledger.setAllowance
    (Ledger.setBalance ⟨fun _ _ => 0, fun _ _ _ => 0⟩ 4 1 100) 4 1 3 allowed
  used _ _ _ := false
  targets a := decide (a = 3)
  owner := 9
  pendingOwner := 0
  entered := false

/-- The target takes eight of the ten and `besides` of the treasury's own. -/
def demoCalls (besides : ℕ) : List (Action Term) :=
  [.token (.transferFrom 4 3 2 3 8), .token (.transferFrom 4 3 1 3 besides),
    .token (.mint 5 1 7)]

/-- What the treasury has of token `0x4` after the execution. -/
def demoLeft (allowed besides : ℕ) : Option ℕ :=
  (act Keccak.symbolic demoEnv 2 (.execute demoAuth [] demoIntent (demoCalls besides))
    (demoChain allowed)).toOption.map (fun s => s.ledger.balance 4 1)

theorem exists_of_demoLeft {allowed besides n : ℕ} (h : demoLeft allowed besides = some n) :
    ∃ s', act Keccak.symbolic demoEnv 2 (.execute demoAuth [] demoIntent (demoCalls besides))
      (demoChain allowed) = .ok s' ∧ s'.ledger.balance 4 1 = n := by
  obtain ⟨s', hs', hn⟩ := Option.map_eq_some_iff.mp h
  exact ⟨s', toOption_eq_some.mp hs', hn⟩

theorem demoEnv_conduit (g : Grant Term) (signature : Bytes) (h : g.from' = 2) :
    demoEnv.signed g signature = false := by
  refine decide_eq_false ?_
  rintro rfl
  exact absurd h (by decide)

theorem execute_safe_demo :
    ∃ s', act Keccak.symbolic demoEnv 2 (.execute demoAuth [] demoIntent (demoCalls 0))
        (demoChain 0) = .ok s'
      ∧ s'.ledger.balance 4 1 = 92
      ∧ ExecuteSafe Keccak.symbolic demoEnv 2 demoAuth [] demoIntent (demoCalls 0) (demoChain 0)
        s' := by
  obtain ⟨s', hok, hleft⟩ := exists_of_demoLeft (by decide +kernel : demoLeft 0 0 = some 92)
  exact ⟨s', hok, hleft, ((execute_safe demoEnv_conduit demoAuth [] demoIntent (demoCalls 0)
    (demoChain 0)).1 s' hok).1⟩

/-- **An allowance of the treasury is spent besides the intent.** -/
theorem execute_draws_allowance :
    Foreign 1 (demoCalls 50)
      ∧ ∃ s', act Keccak.symbolic demoEnv 2 (.execute demoAuth [] demoIntent (demoCalls 50))
          (demoChain 50) = .ok s'
        ∧ ¬(demoChain 50).ledger.balance demoIntent.tokenIn demoAuth.from'
          ≤ s'.ledger.balance demoIntent.tokenIn demoAuth.from' + demoIntent.amountIn.toNat := by
  refine ⟨?_, ?_⟩
  · intro op hop
    simp only [demoCalls, List.mem_cons, Action.token.injEq, List.not_mem_nil, or_false] at hop
    rcases hop with rfl | rfl | rfl <;> decide
  · obtain ⟨s', hok, hleft⟩ := exists_of_demoLeft (by decide +kernel : demoLeft 50 50 = some 42)
    refine ⟨s', hok, ?_⟩
    have hleft : s'.ledger.balance demoIntent.tokenIn demoAuth.from' = 42 := hleft
    rw [hleft]
    decide

end Bufi.Conduit
