import Bufi.Ledger.Steps

/-!
# Closing the signer

After `close()` no transaction is broadcast and no signature of an order is returned: each is
preceded by a look at `closed` in the same turn.  The requests to the device are not: between
the last look in `enter` and the request a call opens the device and prepares its transaction
(`Phase.unguarded`).  A `close()` that comes in between does not stop the request, and a
connection that is opened later stays open.

If every `close()` comes when no call is there, closing is final (`finalClose_of_run`): a
connection is known to the variables or closed (`Closing.known`), and after `close()` it is
closed (`Closing.released`).
-/

namespace Bufi.LedgerSwap

open Bufi.Evm Bufi.Js

variable {D : Type}

/-- A request to the device, a broadcast or a signature that is returned. -/
def Effect.late : Effect D → Bool
  | .signRequest _ | .orderRequest _ | .broadcast _ _ | .returned _ => true
  | _ => false

/-- Between the last look at `closed` in `enter` and the request to the device. -/
def Phase.unguarded : Phase D → Bool
  | .entered _ | .connecting _ | .ready _ _ | .preparing _ _ => true
  | _ => false

def Phase.settled : Phase D → Bool
  | .done _ => true
  | _ => false

/-- Closing is final: nothing is requested, broadcast or returned afterwards, and when every
call has settled each connection has been closed. -/
structure FinalClose (w : SignerWorld D) : Prop where
  quiet : ∀ before after, w.outside = before ++ .closeInvoked :: after →
    ∀ e ∈ after, e.late = false
  released : .closeInvoked ∈ w.outside → (∀ c ∈ w.calls, c.2.settled = true) →
    ∀ connection, .opened connection ∈ w.outside → .closed connection ∈ w.outside

/-- A `close()` comes when no call is on its way to the device. -/
def ClosesApart (w : SignerWorld D) : SignerInput D → Prop
  | .call .close _ => ∀ c ∈ w.calls, c.2.unguarded = false
  | _ => True

instance [DecidableEq D] (w : SignerWorld D) (a : SignerInput D) : Decidable (ClosesApart w a) := by
  unfold ClosesApart
  split <;> infer_instance

/-! ### A call of `close()` that is not over -/

section

variable {V : Viem D} {S : Swap D} {v v' : Vars} {p p' : Phase D} {es es' : List (Effect D)}

theorem mark_closed (v : Vars) (j : Job D) : (mark v j).closed = v.closed := by
  cases j with
  | send => rfl
  | order => rfl

theorem mark_connection (v : Vars) (j : Job D) : (mark v j).connection = v.connection := by
  cases j with
  | send => rfl
  | order => rfl

theorem closed_of_begins {r : Request D} (hb : Begins S v r v' p es) :
    (v.closed = true → v'.closed = true) ∧ (p = .closing → v'.closed = true) := by
  cases hb with
  | closeNone | close => exact ⟨fun _ => rfl, fun _ => rfl⟩
  | _ => exact ⟨id, fun h => nomatch h⟩

theorem closed_of_moves (hm : Moves V v p v' p' es) :
    v'.closed = v.closed ∧ p' ≠ .closing := by
  cases hm with
  | connect | ready | reject => exact ⟨mark_closed _ _, fun h => nomatch h⟩
  | _ => exact ⟨rfl, fun h => nomatch h⟩

variable {history : List (Call (SignerWorld D) (SignerInput D))} {w : SignerWorld D}

theorem closed_of_closing (hr : SignerRun V S history w) :
    ∀ c ∈ w.calls, c.2 = .closing → w.vars.closed = true := by
  refine hr.invariant (P := fun w => ∀ c ∈ w.calls, c.2 = .closing → w.vars.closed = true)
    (fun c hc => absurd hc List.not_mem_nil) ?_
  intro w a w' hw hstep c hc hclosing
  rcases Machine.step_cases hstep with ⟨r, o, p, es, -, hstart, hcalls, -⟩ |
    ⟨before, r, p, p', after, o, es, -, hcalls, hsettle, hcalls', -⟩
  · obtain ⟨hkeep, hnew⟩ := closed_of_begins (begins_of_start hstart)
    rw [hcalls] at hc
    rcases List.mem_append.mp hc with hc | hc
    · exact hkeep (hw c hc hclosing)
    · rw [List.mem_singleton.mp hc] at hclosing
      exact hnew hclosing
  · obtain ⟨hsame, hne⟩ := closed_of_moves (moves_of_settle hsettle)
    rw [hsame]
    rw [hcalls'] at hc
    rcases List.mem_append.mp hc with hc | hc
    · exact hw c (hcalls ▸ List.mem_append_left _ hc) hclosing
    · rcases List.mem_cons.mp hc with rfl | hc
      · exact absurd hclosing hne
      · exact hw c (hcalls ▸ List.mem_append_right _ (List.mem_cons_of_mem _ hc)) hclosing

end

/-! ### Closing is final -/

/-- What is known of `closed` and the connection. -/
structure Closing (v : Vars) (h : Option (Phase D)) (es : List (Effect D)) : Prop where
  closed : .closeInvoked ∈ es → v.closed = true
  guarded : v.closed = true → ∀ p, h = some p → p.unguarded = false
  quiet : es.Pairwise (fun a b => a = .closeInvoked → b.late = false)
  known : ∀ c, .opened c ∈ es →
    .closed c ∈ es ∨ ∃ address, v.connection = some ⟨c, address⟩
  released : v.closed = true → ∀ c, v.connection = some c → .closed c.id ∈ es
  rejecting : ∀ j, h = some (.rejecting j) → ∀ c, v.connection = some c → .closed c.id ∈ es
  connecting : ∀ j, h = some (.connecting j) → v.connection = none

section

variable {V : Viem D} {S : Swap D} {v v' : Vars} {p p' : Phase D} {h h' : Option (Phase D)}
  {es es' : List (Effect D)}

/-- Effects that come while the swap is not closed, or are not late. -/
theorem Closing.quiet_append (hi : Closing v h es) (hes : .closeInvoked ∉ es')
    (hlate : ∀ e ∈ es', e.late = true → v.closed = false) :
    (es ++ es').Pairwise (fun a b => a = .closeInvoked → b.late = false) := by
  refine List.pairwise_append.mpr ⟨hi.quiet, ?_, ?_⟩
  · refine List.pairwise_of_forall_mem_list (fun a ha b _ hclose => ?_)
    exact absurd (hclose ▸ ha) hes
  · rintro a ha b hb rfl
    have hclosed := hi.closed ha
    cases hb' : b.late with
    | false => rfl
    | true =>
      rw [hlate b hb hb'] at hclosed
      cases hclosed

/-- A step that opens nothing and leaves `closed` and the connection alone. -/
theorem Closing.keeps (hi : Closing v h es) (hclosed : v'.closed = v.closed)
    (hconnection : v'.connection = v.connection) (hes : .closeInvoked ∉ es')
    (hopened : ∀ c, .opened c ∉ es') (hlate : ∀ e ∈ es', e.late = true → v.closed = false)
    (hguarded : v.closed = true → ∀ p, h' = some p → p.unguarded = false)
    (hrejecting : ∀ j, h' = some (.rejecting j) → ∀ c, v.connection = some c →
      .closed c.id ∈ es ++ es')
    (hconnecting : ∀ j, h' = some (.connecting j) → v.connection = none) :
    Closing v' h' (es ++ es') where
  closed hmem := hclosed.trans (hi.closed ((List.mem_append.mp hmem).resolve_right hes))
  guarded hc := hguarded (hclosed ▸ hc)
  quiet := hi.quiet_append hes hlate
  known c hc := by
    rw [hconnection]
    exact (hi.known c ((List.mem_append.mp hc).resolve_right (hopened c))).imp_left
      (List.mem_append_left _)
  released hc c hcon := List.mem_append_left _ (hi.released (hclosed ▸ hc) c (hconnection ▸ hcon))
  rejecting j hj c hcon := hrejecting j hj c (hconnection ▸ hcon)
  connecting j hj := hconnection.trans (hconnecting j hj)

/-- The call that holds `busy` goes on. -/
theorem Closing.goes (hi : Closing v (some p) es) (hclosed : v'.closed = v.closed)
    (hconnection : v'.connection = v.connection) (hes : .closeInvoked ∉ es')
    (hopened : ∀ c, .opened c ∉ es')
    (hlate : ∀ e ∈ es', e.late = true → v.closed = false ∨ p.unguarded = true)
    (hguarded : p'.unguarded = true → v.closed = false ∨ p.unguarded = true)
    (hrejecting : ∀ j, p' = .rejecting j → ∀ c, v.connection = some c → .closed c.id ∈ es')
    (hconnecting : ∀ j, p' = .connecting j → v.connection = none) :
    Closing v' (if p'.holds then some p' else none) (es ++ es') := by
  have hopen : v.closed = false ∨ p.unguarded = true → v.closed = false := by
    rintro (hopen | hp)
    · exact hopen
    · refine Bool.eq_false_iff.mpr (fun hc => ?_)
      rw [hi.guarded hc p rfl] at hp
      cases hp
  have hsome : ∀ q, (if p'.holds then some p' else none) = some q → q = p' := by
    intro q hq
    split at hq
    · exact (Option.some.inj hq).symm
    · cases hq
  refine hi.keeps hclosed hconnection hes hopened (fun e he hl => hopen (hlate e he hl)) ?_ ?_ ?_
  · intro hc q hq
    refine Bool.eq_false_iff.mpr (fun hu => ?_)
    rw [hsome q hq] at hu
    rw [hopen (hguarded hu)] at hc
    cases hc
  · intro j hj c hcon
    exact List.mem_append_right _ (hrejecting j (hsome _ hj).symm c hcon)
  · exact fun j hj => hconnecting j (hsome _ hj).symm

/-- The call that holds `busy` closes nothing and opens nothing. -/
theorem Closing.moves (hi : Closing v (some p) es) (hclosed : v'.closed = v.closed)
    (hconnection : v'.connection = v.connection)
    (hguarded : p'.unguarded = true → v.closed = false ∨ p.unguarded = true)
    (hrejecting : ∀ j, p' ≠ .rejecting j) (hconnecting : ∀ j, p' ≠ .connecting j) :
    Closing v' (if p'.holds then some p' else none) (es ++ []) :=
  hi.goes hclosed hconnection List.not_mem_nil (fun _ => List.not_mem_nil)
    (fun _ he => absurd he List.not_mem_nil) hguarded (fun j hj => absurd hj (hrejecting j))
    (fun j hj => absurd hj (hconnecting j))

/-- The connection is given up, after it was closed. -/
theorem Closing.releases (hi : Closing v h es)
    (hreleased : ∀ c, v.connection = some c → .closed c.id ∈ es)
    (hguarded : v.closed = true → ∀ p, h' = some p → p.unguarded = false) :
    Closing { v with connection := none } h' (es ++ []) where
  closed hmem := hi.closed (List.append_nil es ▸ hmem)
  guarded := hguarded
  quiet := (List.append_nil es).symm ▸ hi.quiet
  known c hc := by
    rw [List.append_nil] at hc ⊢
    rcases hi.known c hc with hmem | ⟨address, hcon⟩
    · exact .inl hmem
    · exact .inl (hreleased _ hcon)
  released _ c hcon := nomatch hcon
  rejecting _ _ c hcon := nomatch hcon
  connecting _ _ := rfl

/-- A device is connected while the swap is not closed. -/
theorem Closing.opens {j : Job D} {address : String} (hi : Closing v (some (.connecting j)) es)
    (hp : p'.holds = true) (hes : es' = [.opened v.opened] ∧ (∀ j, p' ≠ .rejecting j) ∨
      es' = [.opened v.opened, .closed v.opened]) (hconnecting : ∀ j, p' ≠ .connecting j) :
    Closing { v with connection := some ⟨v.opened, address⟩, opened := v.opened + 1 }
      (if p'.holds then some p' else none) (es ++ es') := by
  have hopen : v.closed = false := by
    refine Bool.eq_false_iff.mpr (fun hc => ?_)
    have hguarded := hi.guarded hc _ rfl
    cases hguarded
  have hnone := hi.connecting j rfl
  rw [if_pos hp]
  have hmem : ∀ c, .opened c ∈ es' → c = v.opened := by
    rcases hes with ⟨rfl, -⟩ | rfl
    · intro c hc
      simpa using hc
    · intro c hc
      simpa using hc
  have hnot : .closeInvoked ∉ es' := by
    rcases hes with ⟨rfl, -⟩ | rfl
    · simp
    · simp
  have hlate : ∀ e ∈ es', e.late = true → v.closed = false := fun _ _ _ => hopen
  refine ⟨fun hc => ?_, fun hc => ?_, hi.quiet_append hnot hlate, ?_, fun hc => ?_, ?_, ?_⟩
  · exact hi.closed ((List.mem_append.mp hc).resolve_right hnot)
  · rw [show v.closed = true from hc] at hopen
    cases hopen
  · intro c hc
    rcases List.mem_append.mp hc with hc | hc
    · rcases hi.known c hc with hclosed | ⟨address, hcon⟩
      · exact .inl (List.mem_append_left _ hclosed)
      · rw [hnone] at hcon
        cases hcon
    · rw [hmem c hc]
      exact .inr ⟨address, rfl⟩
  · rw [show v.closed = true from hc] at hopen
    cases hopen
  · rintro j hj c hcon
    obtain rfl := Option.some.inj hcon
    rcases hes with ⟨-, hne⟩ | rfl
    · exact absurd (Option.some.inj hj) (hne j)
    · exact List.mem_append_right _ (by simp)
  · exact fun j hj => absurd (Option.some.inj hj) (hconnecting j)

theorem closing_hold (hm : Moves V v p v' p' es') (hp : p.holds = true)
    (hi : Closing v (some p) es) :
    Closing v' (if p'.holds then some p' else none) (es ++ es') := by
  cases hm with
  | entered hclosed =>
    exact hi.moves rfl rfl (fun _ => .inl hclosed) (fun _ h => nomatch h) (fun _ h => nomatch h)
  | connect hnone =>
    exact hi.goes (mark_closed _ _) (mark_connection _ _) List.not_mem_nil
      (fun _ => List.not_mem_nil) (fun _ he => absurd he List.not_mem_nil) (fun _ => .inr rfl)
      (fun _ h => nomatch h) (fun _ _ => hnone)
  | ready =>
    exact hi.moves (mark_closed _ _) (mark_connection _ _) (fun _ => .inr rfl)
      (fun _ h => nomatch h) (fun _ h => nomatch h)
  | reject hc =>
    refine hi.goes (mark_closed _ _) (mark_connection _ _) (by simp) (by simp)
      (by simp [Effect.late]) (fun h => nomatch h) ?_ (fun _ h => nomatch h)
    rintro j - c hcon
    obtain rfl := Option.some.inj (hc.symm.trans hcon)
    exact List.mem_singleton_self _
  | opened => exact hi.opens rfl (.inl ⟨rfl, fun _ h => nomatch h⟩) (fun _ h => nomatch h)
  | openedWrong => exact hi.opens rfl (.inr rfl) (fun _ h => nomatch h)
  | @rejected j x =>
    refine hi.releases (hi.rejecting j rfl) ?_
    rintro - q ⟨⟩
    rfl
  | prepare =>
    exact hi.moves rfl rfl (fun _ => .inr rfl) (fun _ h => nomatch h) (fun _ h => nomatch h)
  | requestOrder | request =>
    exact hi.goes rfl rfl (by simp) (by simp) (fun _ _ _ => .inr rfl) (fun h => nomatch h)
      (fun _ h => nomatch h) (fun _ h => nomatch h)
  | broadcast hclosed | returned hclosed =>
    exact hi.goes rfl rfl (by simp) (by simp) (fun _ _ _ => .inl hclosed) (fun h => nomatch h)
      (fun _ h => nomatch h) (fun _ h => nomatch h)
  | success | revert =>
    exact hi.goes rfl rfl (by simp) (by simp) (by simp [Effect.late]) (fun h => nomatch h)
      (fun _ h => nomatch h) (fun _ h => nomatch h)
  | closed => cases hp
  | notClosed => cases hp
  | _ =>
    exact hi.moves rfl rfl (fun h => nomatch h) (fun _ h => nomatch h) (fun _ h => nomatch h)

theorem closing_other (hm : Moves V v p v' p' es') (hp : p.holds = false)
    (hclosing : p = .closing → v.closed = true) (hi : Closing v h es) :
    Closing v' h (es ++ es') := by
  cases hm with
  | leave hp' | fail hp' =>
    rw [hp] at hp'
    cases hp'
  | closed => exact hi.releases (hi.released (hclosing rfl)) hi.guarded
  | notClosed =>
    rw [List.append_nil]
    exact hi
  | _ => cases hp

theorem closing_take {r : Request D} (hb : Begins S v r v' p es') (hp : p.holds = true)
    (hi : Closing v none es) : Closing v' (some p) (es ++ es') := by
  cases hb with
  | send | order | resume =>
    refine hi.keeps rfl rfl List.not_mem_nil (fun _ => List.not_mem_nil)
      (fun _ he => absurd he List.not_mem_nil) ?_ (fun _ h => nomatch h) (fun _ h => nomatch h)
    rintro - q ⟨⟩
    rfl
  | _ => cases hp

/-- `close()`, while no call is on its way to the device. -/
theorem Closing.closes (hi : Closing v h es) (hguarded : ∀ p, h = some p → p.unguarded = false)
    (hes : es' = [.closeInvoked] ∧ v.connection = none ∨
      ∃ c, es' = [.closeInvoked, .closed c.id] ∧ v.connection = some c) :
    Closing { v with closed := true } h (es ++ es') where
  closed _ := rfl
  guarded _ := hguarded
  quiet := by
    have hlate : ∀ e ∈ es', e.late = false := by
      rcases hes with ⟨rfl, -⟩ | ⟨c, rfl, -⟩
      · simp [Effect.late]
      · simp [Effect.late]
    refine List.pairwise_append.mpr ⟨hi.quiet, ?_, fun _ _ b hb _ => hlate b hb⟩
    exact List.pairwise_of_forall_mem_list (fun _ _ b hb _ => hlate b hb)
  known c hc := by
    have hmem : .opened c ∈ es := by
      refine (List.mem_append.mp hc).resolve_right ?_
      rcases hes with ⟨rfl, -⟩ | ⟨c, rfl, -⟩
      · simp
      · simp
    exact (hi.known c hmem).imp_left (List.mem_append_left _)
  released _ c hcon := by
    rcases hes with ⟨-, hnone⟩ | ⟨d, rfl, hd⟩
    · rw [show v.connection = some c from hcon] at hnone
      cases hnone
    · obtain rfl := Option.some.inj (hd.symm.trans hcon)
      exact List.mem_append_right _ (by simp)
  rejecting j hj c hcon := List.mem_append_left _ (hi.rejecting j hj c hcon)
  connecting j hj := hi.connecting j hj

theorem closing_begin {r : Request D} (hb : Begins S v r v' p es') (hp : p.holds = false)
    (hguarded : r = .close → ∀ p, h = some p → p.unguarded = false) (hi : Closing v h es) :
    Closing v' h (es ++ es') := by
  cases hb with
  | refused =>
    rw [List.append_nil]
    exact hi
  | closeNone hnone => exact hi.closes (hguarded rfl) (.inl ⟨rfl, hnone⟩)
  | close hc => exact hi.closes (hguarded rfl) (.inr ⟨_, rfl, hc⟩)
  | _ => cases hp

variable {history : List (Call (SignerWorld D) (SignerInput D))} {w : SignerWorld D}

theorem Closing.initial : Closing Vars.initial (none : Option (Phase D)) [] where
  closed hc := absurd hc List.not_mem_nil
  guarded hc := nomatch hc
  quiet := .nil
  known _ hc := absurd hc List.not_mem_nil
  released hc := nomatch hc
  rejecting _ hj := nomatch hj
  connecting _ hj := nomatch hj

theorem closing_of_run (hr : SignerRun V S history w)
    (hg : ∀ c ∈ history, ClosesApart c.pre c.act) :
    ∃ h, Closing w.vars h w.outside := by
  have hguard : ∀ c ∈ history, ClosesApart c.pre c.act ∧
      ∀ d ∈ c.pre.calls, d.2 = .closing → c.pre.vars.closed = true := by
    intro c hc
    obtain ⟨i, hi⟩ := List.mem_iff_getElem?.mp hc
    exact ⟨hg c hc, closed_of_closing (hr.of_getElem hi).1⟩
  have hmem : ∀ {w : SignerWorld D} {h : Option (Phase D)} {p},
      Machine.holders Phase.holds w.calls = h.toList → h = some p → ∃ c ∈ w.calls, c.2 = p := by
    rintro w h p hholders rfl
    have hp : p ∈ Machine.holders Phase.holds w.calls := hholders ▸ List.mem_singleton_self p
    exact List.mem_map.mp (List.mem_filter.mp hp).1
  obtain ⟨h, -, -, hi⟩ := signer_lock.invariant
    (I := Closing) (G := fun w a => ClosesApart w a ∧
      ∀ d ∈ w.calls, d.2 = .closing → w.vars.closed = true) rfl
    .initial
    (fun _ hstart hp hi => closing_take (begins_of_start hstart) hp hi)
    (fun hg hholders hstart hp hi => closing_begin (begins_of_start hstart) hp (by
      rintro rfl p hsome
      obtain ⟨c, hc, rfl⟩ := hmem hholders hsome
      exact hg.1 c hc) hi)
    (fun hsettle hp hi => closing_hold (moves_of_settle hsettle) hp hi)
    (fun hg hcall hsettle hp hi =>
      closing_other (moves_of_settle hsettle) hp (hg.2 _ hcall) hi)
    hr hguard
  exact ⟨h, hi⟩

/-- **Closing is final if every `close()` comes when no call is on its way to the device.** -/
theorem finalClose_of_run (hr : SignerRun V S history w)
    (hg : ∀ c ∈ history, ClosesApart c.pre c.act) : FinalClose w := by
  obtain ⟨h, hi⟩ := closing_of_run hr hg
  constructor
  · intro before after hes e he
    have hquiet := hi.quiet
    rw [hes] at hquiet
    have htail := List.pairwise_append.mp hquiet |>.2.1
    exact (List.pairwise_cons.mp htail).1 e he rfl
  · intro hinvoked _ c hc
    rcases hi.known c hc with hclosed | ⟨address, hcon⟩
    · exact hclosed
    · exact hi.released (hi.closed hinvoked) _ hcon

end

/-- The swap is closed while the session is checked for the last time. -/
def closedInTime : List (SignerInput String) :=
  [.call (.sendTransaction ⟨"0xtoken", "0x01", none⟩) (.passes true),
    .settle 0 (.passes true), .settle 0 (.passes true), .settle 0 (.passes true),
    .settle 0 (.connected "0xAB"), .settle 0 (.passes true),
    .settle 0 (.prepared (preparedStep "0xTOKEN" "0x01" 0 "a")),
    .settle 0 (.signed (byDevice "r")), .settle 0 (.recovered "0xab" true),
    .call .close (.passes true), .settle 0 (.passes true), .settle 0 (.passes true),
    .settle 1 (.passes true)]

theorem finalClose_closedInTime :
    ∃ history w, SignerRun plainViem twoSteps history w ∧ history.length = 13 ∧
      w.outside = [.opened 0, .signRequest (preparedStep "0xTOKEN" "0x01" 0 "a"), .closeInvoked,
        .closed 0] ∧ FinalClose w := by
  have hr := Run.of_attempts (signer plainViem twoSteps).step
    (.initial Vars.initial : SignerWorld String) closedInTime
  have hfacts : (attempts (signer plainViem twoSteps).step
        (.initial Vars.initial : SignerWorld String) closedInTime).length = 13 ∧
      (afterAttempts (signer plainViem twoSteps).step (.initial Vars.initial : SignerWorld String)
        closedInTime).outside = [.opened 0, .signRequest (preparedStep "0xTOKEN" "0x01" 0 "a"),
        .closeInvoked, .closed 0] ∧
      ∀ c ∈ attempts (signer plainViem twoSteps).step
        (.initial Vars.initial : SignerWorld String) closedInTime, ClosesApart c.pre c.act := by
    decide +kernel
  exact ⟨_, _, hr, hfacts.1, hfacts.2.1, finalClose_of_run hr hfacts.2.2⟩

/-- The swap is closed while the device is being connected. -/
def closedMeanwhile : List (SignerInput String) :=
  [.call (.sendTransaction ⟨"0xtoken", "0x01", none⟩) (.passes true),
    .settle 0 (.passes true), .settle 0 (.passes true), .settle 0 (.passes true),
    .call .close (.passes true), .settle 0 (.connected "0xAB"), .settle 0 (.passes true),
    .settle 0 (.prepared (preparedStep "0xTOKEN" "0x01" 0 "a")), .settle 0 .throws]

/-- The device is then asked to sign, and its connection is never closed. -/
theorem not_finalClose_closedMeanwhile :
    ∃ history w, SignerRun plainViem twoSteps history w ∧
      (∀ c ∈ w.calls, c.2.settled = true) ∧
      w.outside = [.closeInvoked, .opened 0,
        .signRequest (preparedStep "0xTOKEN" "0x01" 0 "a")] ∧ ¬ FinalClose w := by
  have hr := Run.of_attempts (signer plainViem twoSteps).step
    (.initial Vars.initial : SignerWorld String) closedMeanwhile
  have hfacts : (∀ c ∈ (afterAttempts (signer plainViem twoSteps).step
        (.initial Vars.initial : SignerWorld String) closedMeanwhile).calls, c.2.settled = true) ∧
      (afterAttempts (signer plainViem twoSteps).step (.initial Vars.initial : SignerWorld String)
        closedMeanwhile).outside = [.closeInvoked, .opened 0,
        .signRequest (preparedStep "0xTOKEN" "0x01" 0 "a")] := by
    decide +kernel
  refine ⟨_, _, hr, hfacts.1, hfacts.2, fun hfinal => ?_⟩
  have hlate := hfinal.quiet [] _ hfacts.2 (.signRequest (preparedStep "0xTOKEN" "0x01" 0 "a"))
    (by simp)
  cases hlate

end Bufi.LedgerSwap
