import Bufi.Ledger.Moves

/-!
# Each reviewed step is sent once

`Protocol` is what the node may see of the signer: a reviewed transaction is broadcast, then
its receipt is awaited, and the next one is broadcast only after a receipt of success; after
one that reverted nothing more is broadcast.  It says nothing about how calls interleave.

The signer follows it (`follows_of_run`): the variables know the status of the protocol, and
the call that holds `busy` knows which step it may send (`Knows`).
-/

namespace Bufi.LedgerSwap

open Bufi.Evm Bufi.Js

variable {D : Type}

/-! ### The protocol -/

/-- Where the step that is next stands. -/
inductive Status
  | idle
  | outstanding (hash : String)
  | failed
  deriving DecidableEq

/-- Neither a transaction nor a receipt. -/
def Effect.quiet : Effect D → Bool
  | .broadcast _ _ | .receipt _ _ => false
  | _ => true

inductive Protocol (V : Viem D) (S : Swap D) : List (Effect D) → ℕ → Status → Prop
  | nil : Protocol V S [] 0 .idle
  | quiet {es : List (Effect D)} {n : ℕ} {st : Status} {e : Effect D} :
      Protocol V S es n st → e.quiet = true → Protocol V S (es ++ [e]) n st
  | broadcast {es : List (Effect D)} {n : ℕ} {expected : SwapStep} {t : Prepared}
      {raw : String} : Protocol V S es n .idle → S.steps[n]? = some expected →
      t.sends expected = true →
      Protocol V S (es ++ [.broadcast t raw]) n (.outstanding (V.keccak256 raw))
  | success {es : List (Effect D)} {n : ℕ} {hash : String} :
      Protocol V S es n (.outstanding hash) →
      Protocol V S (es ++ [.receipt hash true]) (n + 1) .idle
  | revert {es : List (Effect D)} {n : ℕ} {hash : String} :
      Protocol V S es n (.outstanding hash) → Protocol V S (es ++ [.receipt hash false]) n .failed

/-- The transactions that were broadcast. -/
def broadcasts (es : List (Effect D)) : List (Prepared × String) :=
  es.filterMap (fun e => match e with
    | .broadcast t raw => some (t, raw)
    | _ => none)

/-- The steps that were broadcast: those before the next one, and it too if it is not idle. -/
def sentSteps (n : ℕ) : Status → ℕ
  | .idle => n
  | _ => n + 1

theorem broadcasts_append (es es' : List (Effect D)) :
    broadcasts (es ++ es') = broadcasts es ++ broadcasts es' := List.filterMap_append

theorem broadcasts_quiet {e : Effect D} (he : e.quiet = true) : broadcasts [e] = [] := by
  cases e with
  | broadcast => cases he
  | _ => rfl

/-- A list that ends in `e`, split at a broadcast. -/
theorem append_eq_broadcast {es before after : List (Effect D)} {e : Effect D} {t : Prepared}
    {raw : String} (h : es ++ [e] = before ++ .broadcast t raw :: after) :
    (e = .broadcast t raw ∧ after = [] ∧ es = before) ∨
      ∃ after', after = after' ++ [e] ∧ es = before ++ .broadcast t raw :: after' := by
  rcases List.eq_nil_or_concat after with rfl | ⟨after', e', rfl⟩
  · obtain ⟨rfl, he⟩ := List.append_inj' h rfl
    exact .inl ⟨(List.cons.inj he).1, rfl, rfl⟩
  · rw [List.concat_eq_append, ← List.cons_append, ← List.append_assoc] at h
    obtain ⟨rfl, he⟩ := List.append_inj' h rfl
    obtain ⟨rfl, -⟩ := List.cons.inj he
    exact .inr ⟨after', List.concat_eq_append, rfl⟩

namespace Protocol

variable {V : Viem D} {S : Swap D} {es : List (Effect D)} {n : ℕ} {st : Status}

theorem quiets (h : Protocol V S es n st) {es' : List (Effect D)}
    (hes : ∀ e ∈ es', e.quiet = true) : Protocol V S (es ++ es') n st := by
  induction es' generalizing es with
  | nil =>
    rw [List.append_nil]
    exact h
  | cons e es' ih =>
    obtain ⟨he, hes⟩ := List.forall_mem_cons.mp hes
    have hall := ih (h.quiet he) hes
    rwa [List.append_assoc, List.singleton_append] at hall

/-- **What is broadcast is a prefix of the reviewed steps.** -/
theorem sends (h : Protocol V S es n st) : sentSteps n st ≤ S.steps.length ∧
    List.Forall₂ (fun expected b => Prepared.sends b.1 expected = true)
      (S.steps.take (sentSteps n st)) (broadcasts es) := by
  induction h with
  | nil => exact ⟨Nat.zero_le _, .nil⟩
  | quiet _ he ih =>
    rw [broadcasts_append, broadcasts_quiet he, List.append_nil]
    exact ih
  | @broadcast es n expected t raw _ hstep hsends ih =>
    obtain ⟨hlt, -⟩ := List.getElem?_eq_some_iff.mp hstep
    rw [broadcasts_append]
    refine ⟨hlt, ?_⟩
    show List.Forall₂ _ (S.steps.take (n + 1)) _
    rw [List.take_add_one, hstep]
    exact List.rel_append ih.2 (.cons hsends .nil)
  | success _ ih =>
    rw [broadcasts_append]
    exact ⟨ih.1, (List.append_nil _).symm ▸ ih.2⟩
  | revert _ ih =>
    rw [broadcasts_append]
    exact ⟨ih.1, (List.append_nil _).symm ▸ ih.2⟩

/-- What has been seen, after it, of a transaction that was broadcast. -/
def Seen (V : Viem D) (raw : String) (after : List (Effect D)) : Status → Prop
  | .idle => .receipt (V.keccak256 raw) true ∈ after
  | .outstanding hash => .receipt (V.keccak256 raw) true ∈ after ∨ V.keccak256 raw = hash
  | .failed => ∃ success, .receipt (V.keccak256 raw) success ∈ after

theorem Seen.append {raw : String} {after : List (Effect D)} (h : Seen V raw after st)
    (e : Effect D) : Seen V raw (after ++ [e]) st := by
  cases st with
  | idle => exact List.mem_append_left _ h
  | outstanding hash => exact h.imp_left (List.mem_append_left _)
  | failed => exact h.imp (fun _ hmem => List.mem_append_left _ hmem)

theorem seen (h : Protocol V S es n st) {before after : List (Effect D)} {t : Prepared}
    {raw : String} (hes : es = before ++ .broadcast t raw :: after) : Seen V raw after st := by
  induction h generalizing after with
  | nil => simp at hes
  | @quiet es n st e _ he ih =>
    rcases append_eq_broadcast hes with ⟨rfl, -, -⟩ | ⟨after', rfl, hsplit⟩
    · cases he
    · exact (ih hsplit).append e
  | @broadcast es n expected t' raw' _ _ _ ih =>
    rcases append_eq_broadcast hes with ⟨he, -, -⟩ | ⟨after', rfl, hsplit⟩
    · cases he
      exact .inr rfl
    · exact .inl (List.mem_append_left _ (ih hsplit))
  | @success es n hash _ ih =>
    rcases append_eq_broadcast hes with ⟨he, -, -⟩ | ⟨after', rfl, hsplit⟩
    · cases he
    · rcases ih hsplit with hmem | rfl
      · exact List.mem_append_left _ hmem
      · exact List.mem_append_right _ List.mem_cons_self
  | @revert es n hash _ ih =>
    rcases append_eq_broadcast hes with ⟨he, -, -⟩ | ⟨after', rfl, hsplit⟩
    · cases he
    · rcases ih hsplit with hmem | rfl
      · exact ⟨true, List.mem_append_left _ hmem⟩
      · exact ⟨false, List.mem_append_right _ List.mem_cons_self⟩

/-- **Before a broadcast every earlier one was confirmed.** -/
theorem confirmed (h : Protocol V S es n st) {before after : List (Effect D)} {t : Prepared}
    {raw : String} (hes : es = before ++ .broadcast t raw :: after)
    {before' after' : List (Effect D)} {t' : Prepared} {raw' : String}
    (hbefore : before = before' ++ .broadcast t' raw' :: after') :
    .receipt (V.keccak256 raw') true ∈ after' := by
  induction h generalizing after with
  | nil => simp at hes
  | @quiet es n st e _ he ih =>
    rcases append_eq_broadcast hes with ⟨rfl, -, -⟩ | ⟨_, -, hes⟩
    · cases he
    · exact ih hes
  | broadcast hidle _ _ ih =>
    rcases append_eq_broadcast hes with ⟨-, -, rfl⟩ | ⟨_, -, hes⟩
    · exact hidle.seen hbefore
    · exact ih hes
  | success _ ih =>
    rcases append_eq_broadcast hes with ⟨he, -, -⟩ | ⟨_, -, hes⟩
    · cases he
    · exact ih hes
  | revert _ ih =>
    rcases append_eq_broadcast hes with ⟨he, -, -⟩ | ⟨_, -, hes⟩
    · cases he
    · exact ih hes

end Protocol

/-! ### The signer follows the protocol -/

section

variable (S : Swap D) (v : Vars)

/-- What the variables know of the status. -/
def Follows : Status → Prop
  | .idle => v.pending = none
  | .outstanding hash =>
    v.pending = some ⟨hash, v.nextStep⟩ ∧ v.attempted = some v.nextStep
  | .failed => v.pending = none ∧ v.attempted = some v.nextStep

/-- What the call that holds `busy` knows. -/
def Knows (st : Status) : Phase D → Prop
  | .owner (.send expected) | .chain (.send expected) | .entered (.send expected) =>
    st = .idle ∧ S.steps[v.nextStep]? = some expected
  | .connecting (.send expected) | .ready (.send expected) _ | .preparing expected _ =>
    st = .idle ∧ S.steps[v.nextStep]? = some expected ∧ v.attempted = some v.nextStep
  | .signing t | .recovering t _ | .checkingOwner t _ | .checkingChain t _ =>
    st = .idle ∧ (∃ expected, S.steps[v.nextStep]? = some expected ∧ t.sends expected = true) ∧
      v.attempted = some v.nextStep
  | .receipt current => v.pending = some current
  | _ => True

end

/-- The effects so far are those of the protocol. -/
def InProtocol (V : Viem D) (S : Swap D) (v : Vars) (h : Option (Phase D))
    (es : List (Effect D)) : Prop :=
  ∃ st, Protocol V S es v.nextStep st ∧ Follows v st ∧ ∀ p, h = some p → Knows S v st p

section

variable {V : Viem D} {S : Swap D} {v v' : Vars} {st : Status} {p p' : Phase D}
  {es es' : List (Effect D)}

theorem Knows.of_eq (hstep : v'.nextStep = v.nextStep) (hattempted : v'.attempted = v.attempted)
    (hpending : v'.pending = v.pending) (h : Knows S v st p) : Knows S v' st p := by
  unfold Knows at *
  rw [hstep, hattempted, hpending]
  exact h

theorem Follows.of_eq (hstep : v'.nextStep = v.nextStep) (hattempted : v'.attempted = v.attempted)
    (hpending : v'.pending = v.pending) (h : Follows v st) : Follows v' st := by
  unfold Follows at *
  rw [hstep, hattempted, hpending]
  exact h

/-- A step that leaves the variables of the protocol alone. -/
theorem InProtocol.quiets {h h' : Option (Phase D)} (hi : InProtocol V S v h es)
    (hstep : v'.nextStep = v.nextStep) (hattempted : v'.attempted = v.attempted)
    (hpending : v'.pending = v.pending) (hes : ∀ e ∈ es', e.quiet = true)
    (hknows : ∀ st, (∀ p, h = some p → Knows S v st p) → ∀ p, h' = some p → Knows S v st p) :
    InProtocol V S v' h' (es ++ es') := by
  obtain ⟨st, hprotocol, hfollows, hp⟩ := hi
  refine ⟨st, ?_, hfollows.of_eq hstep hattempted hpending, fun p hh' => ?_⟩
  · rw [hstep]
    exact hprotocol.quiets hes
  · exact (hknows st hp p hh').of_eq hstep hattempted hpending

/-- The call that holds `busy` goes on, and what it knows then follows from what it knew. -/
theorem InProtocol.goes (hi : InProtocol V S v (some p) es) (hstep : v'.nextStep = v.nextStep)
    (hattempted : v'.attempted = v.attempted) (hpending : v'.pending = v.pending)
    (hes : ∀ e ∈ es', e.quiet = true)
    (hknows : ∀ st, Knows S v st p → p'.holds = true → Knows S v st p') :
    InProtocol V S v' (if p'.holds then some p' else none) (es ++ es') := by
  refine hi.quiets hstep hattempted hpending hes (fun st hp q hq => ?_)
  split at hq
  · rename_i hholds
    cases hq
    exact hknows st (hp p rfl) hholds
  · cases hq

abbrev SignerWorld (D : Type) : Type := Machine.World Vars (Request D) (Phase D) (Effect D)

abbrev SignerInput (D : Type) : Type := Machine.Input (Request D) Outcome

abbrev SignerRun (V : Viem D) (S : Swap D) (history : List (Call (SignerWorld D) (SignerInput D)))
    (w : SignerWorld D) : Prop :=
  Run (signer V S).step (.initial Vars.initial) history w

variable {history : List (Call (SignerWorld D) (SignerInput D))} {w : SignerWorld D}

def Effect.isOrderRequest : Effect D → Bool
  | .orderRequest _ => true
  | _ => false

def orderRequests (es : List (Effect D)) : ℕ := es.countP Effect.isOrderRequest

/-- What the call that holds `busy` knows of the order, after `n` requests. -/
def KnowsOrder (v : Vars) (n : ℕ) : Phase D → Prop
  | .owner (.order _) | .chain (.order _) | .entered (.order _) => v.orderAttempted = false
  | .connecting (.order _) | .ready (.order _) _ => v.orderAttempted = true ∧ n = 0
  | _ => True

/-- The order is requested once, by a call that has marked it. -/
structure OrderOnce (v : Vars) (h : Option (Phase D)) (es : List (Effect D)) : Prop where
  once : orderRequests es ≤ 1
  unmarked : v.orderAttempted = false → orderRequests es = 0
  knows : ∀ p, h = some p → KnowsOrder v (orderRequests es) p

theorem orderRequests_append (hes : ∀ e ∈ es', e.isOrderRequest = false) :
    orderRequests (es ++ es') = orderRequests es := by
  have hzero : es'.countP Effect.isOrderRequest = 0 :=
    List.countP_eq_zero.mpr (fun e he => by simp [hes e he])
  rw [orderRequests, List.countP_append, hzero, orderRequests, Nat.add_zero]

/-- A step without the order. -/
theorem OrderOnce.keeps {h h' : Option (Phase D)} (hi : OrderOnce v h es)
    (hv : v'.orderAttempted = v.orderAttempted) (hes : ∀ e ∈ es', e.isOrderRequest = false)
    (hknows : ∀ n, (∀ p, h = some p → KnowsOrder v n p) → ∀ p, h' = some p → KnowsOrder v' n p) :
    OrderOnce v' h' (es ++ es') := by
  have hsame : orderRequests (es ++ es') = orderRequests es := orderRequests_append hes
  refine ⟨hsame ▸ hi.once, fun hfalse => ?_, ?_⟩
  · rw [hsame]
    exact hi.unmarked (hv ▸ hfalse)
  · rw [hsame]
    exact hknows _ hi.knows

theorem KnowsOrder.of_eq {n : ℕ} (hv : v'.orderAttempted = v.orderAttempted)
    (h : KnowsOrder v n p) : KnowsOrder v' n p := by
  unfold KnowsOrder at *
  rw [hv]
  exact h

theorem OrderOnce.goes (hi : OrderOnce v (some p) es) (hv : v'.orderAttempted = v.orderAttempted)
    (hes : ∀ e ∈ es', e.isOrderRequest = false)
    (hknows : ∀ n, KnowsOrder v n p → p'.holds = true → KnowsOrder v n p') :
    OrderOnce v' (if p'.holds then some p' else none) (es ++ es') := by
  refine hi.keeps hv hes (fun n hp q hq => ?_)
  split at hq
  · rename_i hholds
    cases hq
    exact (hknows n (hp p rfl) hholds).of_eq hv
  · cases hq

end

/-- Texts stand for the bytes of a transaction. -/
def plainViem : Viem String where
  serializeTransaction t := some t.other
  serializeSigned t r s _ := some (t.other ++ r ++ s)
  keccak256 raw := raw
  hashTypedData data := some data

/-- An approval and a swap. -/
def twoSteps : Swap String := ⟨"0xAb", 7, [⟨"0xToken", "0x01", 0⟩, ⟨"0xPool", "0x02", 5⟩], none⟩

def preparedStep (to' data : String) (value : ℤ) (other : String) : Prepared :=
  ⟨7, some to', some data, some value, some "eip1559", other⟩

def byDevice (r : String) : Signature := ⟨r, "s", .ofNat 1⟩

end Bufi.LedgerSwap
