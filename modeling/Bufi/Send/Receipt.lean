import Bufi.Send.Work
import Bufi.Send.Once

/-!
# After a mint receipt

A mint whose receipt succeeded is final: the attestation is used, and `send.ts` says
never to report it as an error.  `Reported` is that the record of the job says so, that
the attestation is gone from the memory and the disk, and that no later send is refused
because of it.

The receipt is read inside `gatewayMint`, which goes on to read the balance for the
record.  A job is reported if and only if nothing throws after its receipt
(`reported_iff`): no amount in the logs that is not a number, no balance that cannot be
read, no file that cannot be removed.  The legs before the mint only matter up to the
place where they call it (`LeadsToMint`).
-/

namespace Bufi.Send

open Bufi.Evm Bufi.Js

/-! ### Runs -/

/-- The state that a run ends in. -/
def endState {α : Type} : EStateM.Result Thrown Desk α → Desk
  | .ok _ d => d
  | .error _ d => d

section Runs

variable {α β : Type} {d d' : Desk} {m : Work α} {f : α → Work β}

theorem bind_of_ok {x : α} (h : m.run d = .ok x d') : (m >>= f).run d = (f x).run d' := by
  rw [EStateM.run_bind, h]

theorem bind_of_error {e : Thrown} (h : m.run d = .error e d') :
    (m >>= f).run d = .error e d' := by
  rw [EStateM.run_bind, h]

@[simp] theorem reply_ok (x : α) : (reply (.ok x)).run d = .ok x d := rfl

@[simp] theorem reply_error (e : Thrown) :
    (reply (.error e : Except Thrown α)).run d = .error e d := rfl

@[simp] theorem modifyJob_run (f : JobRecord → JobRecord) :
    (modifyJob f).run d = .ok () { d with job := f d.job } := rfl

@[simp] theorem modifyWorld_run (f : World → World) :
    (modifyWorld f).run d = .ok () { d with world := f d.world } := rfl

@[simp] theorem modifyStep_run (key : StepKey) (f : Step → Step) :
    (modifyStep key f).run d = .ok () { d with job := { d.job with
      steps := Function.update d.job.steps key (f (d.job.steps key)) } } := rfl

end Runs

/-! ### What may throw after a receipt -/

/-- Nothing throws after the receipt: the amounts are numbers, the balance is read as
often as it is asked for, and the file can be removed. -/
structure Undisturbed (a : MintAnswers) (dest : Dest) (recipient : String) (before : ℕ)
    (r : Receipt) : Prop where
  amounts : ∀ l ∈ r.logs, isTransferTo dest.token recipient l = true → (amountOf l).isSome
  balances : ∀ i < maxPolls, (∀ k < i, a.balance k = .ok before) → ∃ n, a.balance i = .ok n
  file : a.rmSync = .ok ()

theorem poll_changed {balance : ℕ → Except Thrown ℕ} {before after : ℕ} (h : after ≠ before)
    (turns i : ℕ) : poll balance before turns i after = .ok after := by
  cases turns with
  | zero => rfl
  | succ turns => rw [poll, if_neg h]; rfl

/-- The loop ends unless a reading that it comes to throws. -/
theorem poll_ok_iff (balance : ℕ → Except Thrown ℕ) (before turns : ℕ) : ∀ i : ℕ,
    (∃ n, poll balance before turns i before = .ok n) ↔
      ∀ k < turns, (∀ m < k, balance (i + m) = .ok before) → ∃ n, balance (i + k) = .ok n := by
  induction turns with
  | zero =>
    intro i
    exact ⟨fun _ k hk => absurd hk (Nat.not_lt_zero k), fun _ => ⟨before, rfl⟩⟩
  | succ turns ih =>
    intro i
    rw [poll, if_pos rfl]
    cases hb : balance i with
    | error e =>
      have hstop : (Except.error e >>= fun after => poll balance before turns (i + 1) after) =
          Except.error e := rfl
      rw [hstop]
      refine iff_of_false (fun h => nomatch h.choose_spec) ?_
      intro h
      obtain ⟨n, hn⟩ := h 0 (Nat.succ_pos turns) (fun m hm => absurd hm (Nat.not_lt_zero m))
      rw [Nat.add_zero, hb] at hn
      cases hn
    | ok after =>
      have hgo : (Except.ok after >>= fun after => poll balance before turns (i + 1) after) =
          poll balance before turns (i + 1) after := rfl
      rw [hgo]
      by_cases hsame : after = before
      · rw [hsame, ih (i + 1)]
        rw [hsame] at hb
        constructor
        · intro h k hk hbefore
          cases k with
          | zero => exact ⟨before, hb⟩
          | succ k =>
            rw [show i + (k + 1) = i + 1 + k by omega]
            refine h k (Nat.lt_of_succ_lt_succ hk) ?_
            intro m hm
            rw [show i + 1 + m = i + (m + 1) by omega]
            exact hbefore (m + 1) (Nat.succ_lt_succ hm)
        · intro h k hk hbefore
          rw [show i + 1 + k = i + (k + 1) by omega]
          refine h (k + 1) (Nat.succ_lt_succ hk) ?_
          intro m hm
          cases m with
          | zero => exact hb
          | succ m =>
            rw [show i + (m + 1) = i + 1 + m by omega]
            exact hbefore m (Nat.lt_of_succ_lt_succ hm)
      · rw [poll_changed hsame]
        refine iff_of_true ⟨after, rfl⟩ ?_
        intro k _ hbefore
        cases k with
        | zero => exact ⟨after, hb⟩
        | succ k =>
          have h0 := hbefore 0 (Nat.succ_pos k)
          rw [Nat.add_zero, hb] at h0
          exact absurd (Except.ok.inj h0) hsame

/-- The loop over the logs, from any total. -/
theorem mintedAmount_ok_iff (logs : List ReceiptLog) (token recipient : String) :
    (∃ n, mintedAmountFromLogs logs token recipient = .ok n) ↔
      ∀ l ∈ logs, isTransferTo token recipient l = true → (amountOf l).isSome := by
  unfold mintedAmountFromLogs
  generalize (0 : ℤ) = total
  induction logs generalizing total with
  | nil => exact ⟨fun _ l hl => absurd hl List.not_mem_nil, fun _ => ⟨total, rfl⟩⟩
  | cons l logs ih =>
    rw [List.forall_mem_cons, List.foldlM_cons]
    by_cases hto : isTransferTo token recipient l = true
    · cases hamount : amountOf l with
      | none =>
        refine iff_of_false ?_ (fun h => nomatch h.1 hto)
        rintro ⟨n, hn⟩
        rw [if_pos hto] at hn
        simp only at hn
        cases hn
      | some amount =>
        simpa [hto] using ih (total + amount)
    · simpa [hto] using ih total

/-! ### The mint -/

variable {a : MintAnswers} {dest : Dest} {attestation signature : Option String}

def Desk.log (d : Desk) (r : Receipt) : Desk := { d with receipts := d.receipts ++ [r] }

/-- What `gatewayMint` reads from a receipt and from the chain after it. -/
def readBack (a : MintAnswers) (dest : Dest) (recipient : String) (before : ℕ) (r : Receipt) :
    Except Thrown (ℤ × ℕ) := do
  let minted ← mintedAmountFromLogs r.logs dest.token recipient
  let after ← poll a.balance before maxPolls 0 before
  pure (minted, after)

/-- **What `gatewayMint` does**: it throws before there is a receipt, or it has one.  Then
it throws if the receipt is not a success or cannot be read back. -/
theorem gatewayMint_run (a : MintAnswers) (dest : Dest) (attestation signature : Option String)
    (recipient : String) (d : Desk) :
    (∃ e, (gatewayMint a dest attestation signature recipient).run d = .error e d) ∨
    ∃ before r, a.before = .ok before ∧
      ((∃ e, (gatewayMint a dest attestation signature recipient).run d = .error e (d.log r) ∧
          (r.status = .success → ∃ e', readBack a dest recipient before r = .error e')) ∨
        ∃ m, (gatewayMint a dest attestation signature recipient).run d = .ok m (d.log r) ∧
          r.status = .success ∧ ∃ x, readBack a dest recipient before r = .ok x) := by
  unfold gatewayMint
  cases hpayer : a.feePayer with
  | error e => exact .inl ⟨e, rfl⟩
  | ok u =>
    cases hbefore : a.before with
    | error e => exact .inl ⟨e, rfl⟩
    | ok before =>
      cases hhash : a.writeContract attestation signature with
      | error e => exact .inl ⟨e, by simp⟩
      | ok hash =>
        cases hreceipt : a.receipt hash with
        | error e => exact .inl ⟨e, by simp [hreceipt]⟩
        | ok r =>
          refine .inr ⟨before, r, rfl, ?_⟩
          by_cases hstatus : r.status = .success
          · unfold readBack
            cases hlogs : mintedAmountFromLogs r.logs dest.token recipient with
            | error e =>
              exact .inl ⟨e, by simp [hreceipt, hstatus, hlogs, Desk.log], fun _ => ⟨e, rfl⟩⟩
            | ok minted =>
              cases hpoll : poll a.balance before maxPolls 0 before with
              | error e =>
                exact .inl ⟨e,
                  by simp [hreceipt, hstatus, hlogs, hpoll, Desk.log, -bind_pure_comp],
                  fun _ => ⟨e, rfl⟩⟩
              | ok after =>
                exact .inr ⟨⟨hash, before, after, minted⟩,
                  by simp [hreceipt, hstatus, hlogs, hpoll, Desk.log, -bind_pure_comp], hstatus,
                  (minted, after), rfl⟩
          · exact .inl ⟨⟨"gatewayMint reverted: " ++ hash, some hash⟩,
              by simp [hreceipt, hstatus, Desk.log], fun h => absurd h hstatus⟩

theorem undisturbed_iff {recipient : String} {before : ℕ} {r : Receipt} :
    Undisturbed a dest recipient before r ↔
      (∃ x, readBack a dest recipient before r = .ok x) ∧ a.rmSync = .ok () := by
  have hamounts := mintedAmount_ok_iff r.logs dest.token recipient
  have hbalances := poll_ok_iff a.balance before maxPolls 0
  simp only [Nat.zero_add] at hbalances
  unfold readBack
  constructor
  · intro h
    obtain ⟨n, hn⟩ := hamounts.mpr h.amounts
    obtain ⟨after, hafter⟩ := hbalances.mpr h.balances
    exact ⟨⟨(n, after), by rw [hn, hafter]; rfl⟩, h.file⟩
  · rintro ⟨⟨x, hx⟩, hfile⟩
    obtain ⟨n, hn, hx⟩ := bind_eq_ok.mp hx
    obtain ⟨after, hafter, -⟩ := bind_eq_ok.mp hx
    exact ⟨hamounts.mp ⟨n, hn⟩, hbalances.mp ⟨after, hafter⟩, hfile⟩

/-- A run that ends with the mint recorded. -/
structure Recorded (d d' : Desk) : Prop where
  status : d'.job.status = .minted
  id : d'.job.id = d.job.id
  resumable : d'.job.resumable = d.job.resumable
  world : d'.world = clearPendingMint d.job.id true d.world

/-- **What `mint` does** with a receipt that succeeded: it records the mint, or it throws,
because something was disturbed. -/
theorem mint_run (ctx : Ctx) {d : Desk} {r : Receipt}
    (hempty : d.receipts = [])
    (hr : r ∈ (endState ((mint a ctx dest attestation signature).run d)).receipts)
    (hstatus : r.status = .success) :
    ∃ before, a.before = .ok before ∧
      ((∃ d', (mint a ctx dest attestation signature).run d = .ok () d' ∧ Recorded d d' ∧
          Undisturbed a dest ctx.recipient before r) ∨
        ∃ e d', (mint a ctx dest attestation signature).run d = .error e d' ∧
          ¬ Undisturbed a dest ctx.recipient before r) := by
  -- the desk when the step is marked as running
  let d₀ := endState ((modifyStep .mint (fun s => { s with state := .running })).run d)
  have hmint : (mint a ctx dest attestation signature).run d =
      (gatewayMint a dest attestation signature ctx.recipient >>= recordMint ctx a.rmSync).run d₀ :=
    rfl
  rw [hmint] at hr ⊢
  obtain ⟨e, hrun⟩ | ⟨before, r', hbefore, ⟨e, hrun, hback⟩ | ⟨m, hrun, -, hback⟩⟩ :=
    gatewayMint_run a dest attestation signature ctx.recipient d₀
  · rw [bind_of_error hrun] at hr
    simp [endState, d₀, hempty] at hr
  · rw [bind_of_error hrun] at hr ⊢
    have hreceipt : r = r' := by simpa [endState, Desk.log, d₀, hempty] using hr
    subst hreceipt
    obtain ⟨e', he'⟩ := hback hstatus
    refine ⟨before, hbefore, .inr ⟨e, _, rfl, ?_⟩⟩
    rw [undisturbed_iff, he']
    rintro ⟨⟨x, hx⟩, -⟩
    cases hx
  · rw [bind_of_ok hrun] at hr ⊢
    cases hrm : a.rmSync with
    | error e =>
      refine ⟨before, hbefore, .inr ⟨e, _, rfl, ?_⟩⟩
      rw [undisturbed_iff, hrm]
      rintro ⟨-, hok⟩
      cases hok
    | ok u =>
      have hreceipt : r = r' := by
        simpa [endState, recordMint, clearMint, hrm, Desk.log, d₀, hempty] using hr
      subst hreceipt
      exact ⟨before, hbefore, .inl ⟨_, rfl, ⟨rfl, rfl, rfl, rfl⟩, undisturbed_iff.mpr ⟨hback, hrm⟩⟩⟩

/-! ### The way to the mint -/

/-- Nothing that the mint depends on has changed. -/
structure Same (d d' : Desk) : Prop where
  receipts : d'.receipts = d.receipts
  id : d'.job.id = d.job.id
  resumable : d'.job.resumable = d.job.resumable

theorem Same.trans {d₁ d₂ d₃ : Desk} (h₁ : Same d₁ d₂) (h₂ : Same d₂ d₃) : Same d₁ d₃ :=
  ⟨h₂.receipts.trans h₁.receipts, h₂.id.trans h₁.id, h₂.resumable.trans h₁.resumable⟩

/-- A computation without a receipt. -/
def Quiet {α : Type} (m : Work α) : Prop := ∀ d, Same d (endState (m.run d))

section Quiet

variable {α β : Type} {m : Work α} {f : α → Work β}

theorem quiet_pure (x : α) : Quiet (pure x : Work α) := fun _ => ⟨rfl, rfl, rfl⟩

theorem quiet_reply (x : Except Thrown α) : Quiet (reply x) := by
  intro d
  cases x with
  | ok x => exact ⟨rfl, rfl, rfl⟩
  | error e => exact ⟨rfl, rfl, rfl⟩

theorem quiet_modifyStep (key : StepKey) (g : Step → Step) : Quiet (modifyStep key g) :=
  fun _ => ⟨rfl, rfl, rfl⟩

theorem Quiet.bind (hm : Quiet m) (hf : ∀ x, Quiet (f x)) : Quiet (m >>= f) := by
  intro d
  have h := hm d
  cases hrun : m.run d with
  | ok x d' =>
    rw [bind_of_ok hrun]
    rw [hrun] at h
    exact h.trans (hf x d')
  | error e d' =>
    rw [bind_of_error hrun]
    rw [hrun] at h
    exact h

theorem quiet_refuse (key : StepKey) (text : Refusal) (detail : Detail) :
    Quiet (refuse key text detail) := fun _ => ⟨rfl, rfl, rfl⟩

theorem quiet_accepted (l : LegAnswers) (ctx : Ctx) (dest : Dest) (text : String) :
    Quiet (accepted l ctx dest text) := by
  refine (quiet_reply _).bind ?_
  intro x d
  by_cases htext : truthyText x.1 = true
  · cases hfile : l.writeFile with
    | ok u => simp [htext]; exact ⟨rfl, rfl, rfl⟩
    | error e => simp [htext]; exact ⟨rfl, rfl, rfl⟩
  · simp [htext]
    exact ⟨rfl, rfl, rfl⟩

theorem quiet_repost (l : LegAnswers) (turns : ℕ) :
    ∀ (i : ℕ) (r : TransferResponse), Quiet (repost l turns i r) := by
  induction turns with
  | zero => exact fun i r => quiet_pure r
  | succ turns ih =>
    intro i r
    unfold repost
    split
    · exact (quiet_modifyStep _ _).bind fun _ => (quiet_reply _).bind fun r => ih (i + 1) r
    · exact quiet_pure r

end Quiet

/-- A computation that ends without a receipt, or with a mint. -/
def LeadsToMint (a : MintAnswers) (ctx : Ctx) (dest : Dest) (m : Work Unit) : Prop :=
  ∀ d, (endState (m.run d)).receipts = d.receipts ∨
    ∃ attestation signature d', Same d d' ∧ m.run d = (mint a ctx dest attestation signature).run d'

section Legs

variable {ctx : Ctx} {m : Work Unit}

theorem Quiet.leads (h : Quiet m) : LeadsToMint a ctx dest m := fun d => .inl (h d).receipts

theorem leads_mint : LeadsToMint a ctx dest (mint a ctx dest attestation signature) :=
  fun d => .inr ⟨attestation, signature, d, ⟨rfl, rfl, rfl⟩, rfl⟩

theorem Quiet.bind_leads {α : Type} {m : Work α} {f : α → Work Unit} (hm : Quiet m)
    (hf : ∀ x, LeadsToMint a ctx dest (f x)) : LeadsToMint a ctx dest (m >>= f) := by
  intro d
  have h := hm d
  cases hrun : m.run d with
  | error e d' =>
    rw [bind_of_error hrun]
    rw [hrun] at h
    exact .inl h.receipts
  | ok x d' =>
    rw [bind_of_ok hrun]
    rw [hrun] at h
    obtain hnone | ⟨attestation, signature, d'', hsame, heq⟩ := hf x d'
    · exact .inl (hnone.trans h.receipts)
    · exact .inr ⟨attestation, signature, d'', h.trans hsame, heq⟩

theorem leads_onResponse (l : LegAnswers) (r : TransferResponse) :
    LeadsToMint a ctx dest (onResponse l a ctx dest r) := by
  unfold onResponse
  split
  · exact (quiet_accepted _ _ _ _).bind_leads fun _ =>
      (quiet_modifyStep _ _).bind_leads fun _ => leads_mint
  · exact (quiet_refuse _ _ _).leads

theorem leads_runEvm (l : LegAnswers) : LeadsToMint a ctx .base (runEvm l a ctx) :=
  (quiet_modifyStep _ _).bind_leads fun _ =>
  (quiet_reply _).bind_leads fun _ =>
  (quiet_reply _).bind_leads fun _ =>
  (quiet_reply _).bind_leads fun _ =>
  (quiet_modifyStep _ _).bind_leads fun _ =>
  (quiet_modifyStep _ _).bind_leads fun _ =>
  (quiet_reply _).bind_leads fun r => leads_onResponse l r

theorem leads_runSolana (l : LegAnswers) : LeadsToMint a ctx .arc (runSolana l a ctx) := by
  refine (quiet_modifyStep _ _).bind_leads fun _ => ?_
  split
  · exact (quiet_refuse _ _ _).leads
  · refine (quiet_reply _).bind_leads fun _ => (quiet_reply _).bind_leads fun _ =>
      (quiet_reply _).bind_leads fun signed => ?_
    cases signed with
    | policy detail => exact (quiet_refuse _ _ _).leads
    | belowThreshold detail => exact (quiet_refuse _ _ _).leads
    | signed signature =>
      exact (quiet_modifyStep _ _).bind_leads fun _ => (quiet_modifyStep _ _).bind_leads fun _ =>
        (quiet_reply _).bind_leads fun first =>
        (quiet_repost l maxTries 0 first).bind_leads fun r => leads_onResponse l r

end Legs

/-! ### What is reported -/

/-- The job is reported as minted, and nothing is left of its attestation: it cannot be
resumed, and no send is refused because of it, also after a restart. -/
structure Reported (d : Desk) : Prop where
  status : d.job.status = .minted
  notResumable : d.job.resumable ≠ some true
  memory : d.job.id ∉ d.world.pendingMints.map Prod.fst
  disk : d.job.id ∉ d.world.files.map Prod.fst
  notRefused : ∀ recipient value,
    assertNoPendingMint d.world.pendingMints recipient value ≠ .error (.unminted d.job.id)
  notRefusedLater : ∀ unreadable recipient value,
    assertNoPendingMint (restart unreadable d.world).pendingMints recipient value ≠
      .error (.unminted d.job.id)

theorem assertNoPendingMint_ne {pendingMints : List (String × PendingMint)} {jobId : String}
    (h : jobId ∉ pendingMints.map Prod.fst) (recipient : String) (value : ℤ) :
    assertNoPendingMint pendingMints recipient value ≠ .error (.unminted jobId) := by
  unfold assertNoPendingMint
  cases hfind : pendingMints.find? (fun e => e.2.sameAs recipient value) with
  | none => exact fun heq => nomatch heq
  | some e =>
    intro heq
    injection heq with heq
    injection heq with heq
    exact h (List.mem_map.mpr ⟨e, List.mem_of_find?_eq_some hfind, heq⟩)

theorem reported_onSettled {d d' : Desk} (h : Recorded d d') (hd : d.job.resumable ≠ some true) :
    Reported (onSettled d') := by
  have hmemory : d.job.id ∉ (onSettled d').world.pendingMints.map Prod.fst := by
    simp [onSettled, finish, h.world, clearPendingMint]
  have hdisk : d.job.id ∉ (onSettled d').world.files.map Prod.fst := by
    simp [onSettled, finish, h.world, clearPendingMint]
  have hlater : ∀ unreadable,
      d.job.id ∉ (restart unreadable (onSettled d').world).pendingMints.map Prod.fst := by
    intro unreadable hmem
    obtain ⟨e, he, heq⟩ := List.mem_map.mp hmem
    exact hdisk (List.mem_map.mpr ⟨e, (List.mem_filter.mp he).1, heq⟩)
  have hid : (onSettled d').job.id = d.job.id := h.id
  constructor
  · exact h.status
  · show d'.job.resumable ≠ some true
    rw [h.resumable]
    exact hd
  · rwa [hid]
  · rwa [hid]
  · rw [hid]
    exact fun _ _ => assertNoPendingMint_ne hmemory _ _
  · rw [hid]
    exact fun unreadable _ _ => assertNoPendingMint_ne (hlater unreadable) _ _

/-- A job that throws is not reported as minted. -/
theorem not_reported_onError (e : Thrown) (d : Desk) : ¬ Reported (onSettled (onError e d)) := by
  intro h
  have hstatus := h.status
  cases hstatus

/-- A job that is tracked to its end. -/
theorem reported_track {ctx : Ctx} {m : Work Unit} {d : Desk} {r : Receipt}
    (hm : LeadsToMint a ctx dest m) (hempty : d.receipts = [])
    (hd : d.job.resumable ≠ some true) (hr : r ∈ (track m d).receipts)
    (hstatus : r.status = .success) :
    Reported (track m d) ↔
      ∃ before, a.before = .ok before ∧ Undisturbed a dest ctx.recipient before r := by
  have hend : (track m d).receipts = (endState (m.run d)).receipts := by
    unfold track
    cases m.run d with
    | ok u d' => rfl
    | error e d' => rfl
  rw [hend] at hr
  obtain hnone | ⟨attestation, signature, d', hsame, heq⟩ := hm d
  · rw [hnone, hempty] at hr
    exact absurd hr List.not_mem_nil
  rw [heq] at hr
  obtain ⟨before, hbefore, ⟨d'', hrun, hrec, hfree⟩ | ⟨e, d'', hrun, hfree⟩⟩ :=
    mint_run ctx (hsame.receipts.trans hempty) hr hstatus
  · have htrack : track m d = onSettled d'' := by rw [track, heq, hrun]
    rw [htrack]
    refine iff_of_true (reported_onSettled hrec ?_) ⟨before, hbefore, hfree⟩
    rw [hsame.resumable]
    exact hd
  · have htrack : track m d = onSettled (onError e d'') := by rw [track, heq, hrun]
    rw [htrack]
    refine iff_of_false (not_reported_onError e d'') ?_
    rintro ⟨before', hbefore', hfree'⟩
    rw [hbefore] at hbefore'
    injection hbefore' with hbefore'
    rw [← hbefore'] at hfree'
    exact hfree hfree'

/-- Where a job mints, and for whom. -/
def Start.target (v : Viem) (w : World) : Start → Except RequestError (Dest × String)
  | .send i => do
    let plan ← validateSend v i
    pure (plan.source.dest, i.recipient)
  | .resume jobId _ => do
    let (p, dest) ← resumable w jobId
    pure (dest, p.recipient)

/-- A job is tracked from a new record, or from one that is reset. -/
theorem exists_track {v : Viem} {ids : ℕ → String} {l : LegAnswers} {a : MintAnswers} {w : World}
    {start : Start} {d : Desk} (hrun : runJob v ids l a w start = .ok d) :
    ∃ dest ctx m d₀, start.target v w = .ok (dest, ctx.recipient) ∧ LeadsToMint a ctx dest m ∧
      d₀.receipts = [] ∧ d₀.job.resumable ≠ some true ∧ d = track m d₀ := by
  cases start with
  | send i =>
    obtain ⟨plan, hplan, hrun⟩ := bind_eq_ok.mp hrun
    obtain ⟨world, -, hrun⟩ := bind_eq_ok.mp hrun
    injection hrun with hrun
    have htarget : (Start.send i).target v w = .ok (plan.source.dest, i.recipient) := by
      rw [Start.target, hplan]
      rfl
    let ctx : Ctx :=
      ⟨plan.value, plan.weight, i.allowlisted, i.pol.thresholdWeight, plan.signers, i.recipient⟩
    let d₀ : Desk := ⟨world, newRecord (ids w.drawn) plan.source, []⟩
    have hfresh : d₀.job.resumable ≠ some true := by simp [d₀, newRecord]
    cases hsource : plan.source with
    | evm =>
      simp only [hsource] at htarget hrun
      exact ⟨.base, ctx, _, d₀, htarget, leads_runEvm l, rfl, hfresh,
        by simp only [d₀, hsource]; exact hrun.symm⟩
    | solana =>
      simp only [hsource] at htarget hrun
      exact ⟨.arc, ctx, _, d₀, htarget, leads_runSolana l, rfl, hfresh,
        by simp only [d₀, hsource]; exact hrun.symm⟩
  | resume jobId old =>
    obtain ⟨⟨p, dest⟩, hp, hrun⟩ := bind_eq_ok.mp hrun
    obtain ⟨world, -, hrun⟩ := bind_eq_ok.mp hrun
    injection hrun with hrun
    have htarget : (Start.resume jobId old).target v w = .ok (dest, p.recipient) := by
      rw [Start.target, hp]
      rfl
    exact ⟨dest, ⟨p.value, .ofNat 0, true, .ofNat 0, [], p.recipient⟩, _, _, htarget, leads_mint,
      rfl, by simp [resumedRecord], hrun.symm⟩

/-- **A mint is reported** if and only if nothing throws after its receipt. -/
theorem reported_iff {v : Viem} {ids : ℕ → String} {l : LegAnswers} {a : MintAnswers}
    {w : World} {start : Start} {d : Desk} {r : Receipt}
    (hrun : runJob v ids l a w start = .ok d) (hr : r ∈ d.receipts)
    (hstatus : r.status = .success) :
    Reported d ↔ ∃ dest recipient before, start.target v w = .ok (dest, recipient) ∧
      a.before = .ok before ∧ Undisturbed a dest recipient before r := by
  obtain ⟨dest, ctx, m, d₀, htarget, hm, hempty, hfresh, rfl⟩ := exists_track hrun
  rw [reported_track hm hempty hfresh hr hstatus, htarget]
  constructor
  · rintro ⟨before, hbefore, hfree⟩
    exact ⟨dest, ctx.recipient, before, rfl, hbefore, hfree⟩
  · rintro ⟨dest', recipient', before, heq, hbefore, hfree⟩
    injection heq with heq
    injection heq with hdest hrecipient
    subst hdest hrecipient
    exact ⟨before, hbefore, hfree⟩

/-! ### A balance that cannot be read -/

/-- The receipt of a mint of half a USDC. -/
def soloReceipt : Receipt where
  status := .success
  logs := [{ address := Dest.base.token
             topics := [transferTopic, "0x00", String.ofList (recipientTopic soloInput.recipient)]
             data := "0x7a120" }]

/-- The mint succeeds; `balance` is what the chain says to the readings after it. -/
def soloMintAnswers (balance : ℕ → Except Thrown ℕ) : MintAnswers where
  feePayer := .ok ()
  before := .ok 0
  writeContract _ _ := .ok "0xcc"
  receipt _ := .ok soloReceipt
  balance := balance
  rmSync := .ok ()

/-- No call before the mint is made when a mint is resumed. -/
def noLegs : LegAnswers where
  buildEvmIntent := .error ⟨"", none⟩
  evmContractSignature := .error ⟨"", none⟩
  localIsValidSignature := .error ⟨"", none⟩
  solanaSlot := .error ⟨"", none⟩
  makeSolanaIntent := .error ⟨"", none⟩
  frostSign := .error ⟨"", none⟩
  postTransfer _ := .error ⟨"", none⟩
  parse _ := .error ⟨"", none⟩
  writeFile := .error ⟨"", none⟩

/-- The server has been restarted with the attestation of the first job, which is resumed. -/
def resumedSolo (balance : ℕ → Except Thrown ℕ) : Except RequestError Desk :=
  runJob digitsViem countIds noLegs (soloMintAnswers balance)
    (restart (fun _ => false) mintingWorld) (.resume (countIds 0) none)

/-- The amount of the log is a number.  Both runs have the receipt; without a reading the
job is an error and resumable. -/
theorem resumedSolo_receipts :
    soloReceipt.logs.all (fun l => (amountOf l).isSome) = true ∧
      (resumedSolo (fun _ => .ok 500000)).toOption.map Desk.receipts = some [soloReceipt] ∧
      (resumedSolo (fun _ => .error ⟨"HTTP request failed.", none⟩)).toOption.map
        (fun d => (d.receipts, d.job.status, d.job.resumable)) =
          some ([soloReceipt], .error, some true) := by
  decide +kernel

/-- The balance has changed when it is read first. -/
theorem reported_iff_changed :
    ∃ d, resumedSolo (fun _ => .ok 500000) = .ok d ∧ soloReceipt ∈ d.receipts ∧ Reported d := by
  obtain ⟨d, hd, hreceipts⟩ := Option.map_eq_some_iff.mp resumedSolo_receipts.2.1
  rw [toOption_eq_some] at hd
  have hmem : soloReceipt ∈ d.receipts := by
    rw [hreceipts]
    exact List.mem_singleton_self _
  refine ⟨d, hd, hmem, (reported_iff hd hmem rfl).mpr ⟨.base, _, 0, rfl, rfl, ?_, ?_, rfl⟩⟩
  · intro l hl _
    exact List.all_eq_true.mp resumedSolo_receipts.1 l hl
  · exact fun i _ _ => ⟨500000, rfl⟩

/-- **A minted job is reported as an error** when a reading after the receipt fails, and
the server asks for its mint to be resumed. -/
theorem not_reported_unread :
    ∃ d, resumedSolo (fun _ => .error ⟨"HTTP request failed.", none⟩) = .ok d ∧
      soloReceipt ∈ d.receipts ∧ soloReceipt.status = .success ∧
      d.job.status = .error ∧ d.job.resumable = some true ∧ ¬ Reported d := by
  obtain ⟨d, hd, heq⟩ := Option.map_eq_some_iff.mp resumedSolo_receipts.2.2
  rw [toOption_eq_some] at hd
  simp only [Prod.mk.injEq] at heq
  obtain ⟨hreceipts, hstatus, hresumable⟩ := heq
  refine ⟨d, hd, ?_, rfl, hstatus, hresumable, fun h => h.notResumable hresumable⟩
  rw [hreceipts]
  exact List.mem_singleton_self _

end Bufi.Send
