import Bufi.Ledger.Signer

/-!
# What a call can do between two awaits

`Begins` lists how a call can begin and `Moves` how it can go on, with what it has checked;
every outcome of what is awaited is one of these (`begins_of_start`, `moves_of_settle`).
A call holds `busy` from `enter` to its release (`signer_lock`).
-/

namespace Bufi.LedgerSwap

open Bufi.Js

variable {D : Type}

/-- The call is between its `enter` and its release. -/
def Phase.holds : Phase D → Bool
  | .done _ | .closing => false
  | _ => true

section

variable (V : Viem D) (S : Swap D)

inductive Begins (v : Vars) : Request D → Vars → Phase D → List (Effect D) → Prop
  | refused {r : Request D} {x : Result} (hr : r ≠ .close) : Begins v r v (.done x) []
  | send {tx : LedgerSwapTransaction} {expected : SwapStep} (hclosed : v.closed = false)
      (hbusy : v.busy = false) (hstep : S.steps[v.nextStep]? = some expected)
      (hpending : v.pending = none) (hattempted : v.attempted ≠ some v.nextStep) :
      Begins v (.sendTransaction tx) { v with busy := true } (.owner (.send expected)) []
  | order {data expected : D} {hash : String} (hclosed : v.closed = false)
      (hbusy : v.busy = false) (horder : v.orderAttempted = false)
      (hexpected : S.expectedOrder = some (expected, hash)) :
      Begins v (.signTypedData data) { v with busy := true } (.owner (.order expected)) []
  | resume {p : Pending} (hbusy : v.busy = false) (hpending : v.pending = some p) :
      Begins v .resumeTransaction { v with busy := true } .resumeOwner []
  | closeNone (hnone : v.connection = none) :
      Begins v .close { v with closed := true } (.done .nothing) [.closeInvoked]
  | close {c : Connection} (hc : v.connection = some c) :
      Begins v .close { v with closed := true } .closing [.closeInvoked, .closed c.id]

inductive Moves (v : Vars) : Phase D → Vars → Phase D → List (Effect D) → Prop
  | leave {p : Phase D} {x : Result} (hp : p.holds = true) :
      Moves v p { v with busy := false } (.done x) []
  | fail {p : Phase D} {x : Result} (hp : p.holds = true) : Moves v p v (.leaving x) []
  | chain {j : Job D} : Moves v (.owner j) v (.chain j) []
  | entered {j : Job D} (hclosed : v.closed = false) : Moves v (.chain j) v (.entered j) []
  | connect {j : Job D} (hnone : v.connection = none) :
      Moves v (.entered j) (mark v j) (.connecting j) []
  | ready {j : Job D} {c : Connection} (hc : v.connection = some c) :
      Moves v (.entered j) (mark v j) (.ready j c) []
  | reject {j : Job D} {c : Connection} (hc : v.connection = some c) :
      Moves v (.entered j) (mark v j) (.rejecting j) [.closed c.id]
  | opened {j : Job D} {address : String} :
      Moves v (.connecting j)
        { v with connection := some ⟨v.opened, address⟩, opened := v.opened + 1 }
        (.ready j ⟨v.opened, address⟩) [.opened v.opened]
  | openedWrong {j : Job D} {address : String} :
      Moves v (.connecting j)
        { v with connection := some ⟨v.opened, address⟩, opened := v.opened + 1 }
        (.rejecting j) [.opened v.opened, .closed v.opened]
  | rejected {j : Job D} {x : Result} :
      Moves v (.rejecting j) { v with connection := none } (.leaving x) []
  | prepare {expected : SwapStep} {c : Connection} :
      Moves v (.ready (.send expected) c) v (.preparing expected c) []
  | requestOrder {data : D} {c : Connection} :
      Moves v (.ready (.order data) c) v .ordering [.orderRequest data]
  | request {expected : SwapStep} {c : Connection} {t : Prepared}
      (hsends : t.sends expected = true) :
      Moves v (.preparing expected c) v (.signing t) [.signRequest t]
  | recover {t : Prepared} {raw : String} : Moves v (.signing t) v (.recovering t raw) []
  | checkOwner {t : Prepared} {raw : String} (hclosed : v.closed = false) :
      Moves v (.recovering t raw) v (.checkingOwner t raw) []
  | checkChain {t : Prepared} {raw : String} :
      Moves v (.checkingOwner t raw) v (.checkingChain t raw) []
  | broadcast {t : Prepared} {raw : String} (hclosed : v.closed = false) :
      Moves v (.checkingChain t raw)
        { v with pending := some ⟨V.keccak256 raw, v.nextStep⟩ } .sending [.broadcast t raw]
  | confirm {current : Pending} (hpending : v.pending = some current) :
      Moves v .sending v (.receipt current) []
  | success {current : Pending} {x : Result} :
      Moves v (.receipt current) { v with pending := none, nextStep := current.step + 1 }
        (.leaving x) [.receipt current.hash true]
  | revert {current : Pending} {x : Result} :
      Moves v (.receipt current) { v with pending := none } (.leaving x)
        [.receipt current.hash false]
  | recoverOrder {signature : String} : Moves v .ordering v (.recoveringOrder signature) []
  | checkOrder {signature : String} (hclosed : v.closed = false) :
      Moves v (.recoveringOrder signature) v (.checkingOrder signature) []
  | returned {signature : String} (hclosed : v.closed = false) :
      Moves v (.checkingOrder signature) { v with busy := false } (.done (.signature signature))
        [.returned signature]
  | resumeChain : Moves v .resumeOwner v .resumeChain []
  | resumeConfirm {current : Pending} (hpending : v.pending = some current) :
      Moves v .resumeChain v (.receipt current) []
  | closed {x : Result} : Moves v .closing { v with connection := none } (.done x) []
  | notClosed {x : Result} : Moves v .closing v (.done x) []

end

variable {V : Viem D} {S : Swap D} {v v' : Vars} {p p' : Phase D} {es : List (Effect D)}

theorem begins_of_enter {r : Request D} {j : Job D} {review : Bool} (hr : r ≠ .close)
    (h : enter v j review = some (v', p, es))
    (hj : v.closed = false → v.busy = false →
      Begins S v r { v with busy := true } (.owner j) []) : Begins S v r v' p es := by
  rw [enter] at h
  split_ifs at h with hclosed hreview
  · cases h
    exact .refused hr
  · cases h
    rw [not_or, Bool.not_eq_true, Bool.not_eq_true] at hclosed
    exact hj hclosed.1 hclosed.2
  · cases h
    exact .refused hr

theorem begins_of_start {r : Request D} {o : Outcome} (h : start V S v r o = some (v', p, es)) :
    Begins S v r v' p es := by
  cases o with
  | passes review =>
    cases r with
    | sendTransaction tx =>
      have hne : Request.sendTransaction (D := D) tx ≠ .close := fun heq => nomatch heq
      simp only [start, sendTransaction] at h
      split at h
      · cases h
        exact .refused hne
      · rename_i expected hstep
        split_ifs at h with hsame htried
        · cases h
          exact .refused hne
        · rw [not_or, Bool.not_eq_true, Option.isSome_eq_false_iff, Option.isNone_iff_eq_none]
            at htried
          exact begins_of_enter hne h (fun hclosed hbusy =>
            .send hclosed hbusy hstep htried.1 htried.2)
        · cases h
          exact .refused hne
    | signTypedData data =>
      have hne : Request.signTypedData (D := D) data ≠ .close := fun heq => nomatch heq
      simp only [start, signTypedData] at h
      split at h
      · cases h
        exact .refused hne
      · rename_i expected expectedHash hexpected
        split at h
        · cases h
          exact .refused hne
        · split_ifs at h with hsame horder
          · cases h
            exact .refused hne
          · cases h
            exact .refused hne
          · exact begins_of_enter hne h (fun hclosed hbusy =>
              .order hclosed hbusy (Bool.not_eq_true _ ▸ horder) hexpected)
    | resumeTransaction =>
      have hne : Request.resumeTransaction (D := D) ≠ .close := fun heq => nomatch heq
      simp only [start, resumeTransaction] at h
      split_ifs at h with hbusy hpending
      · cases h
        exact .refused hne
      · cases h
        exact .refused hne
      · cases h
        obtain ⟨current, hcurrent⟩ := Option.ne_none_iff_exists'.mp
          (fun hnone => hpending (Option.isNone_iff_eq_none.mpr hnone))
        exact .resume (Bool.not_eq_true _ ▸ hbusy) hcurrent
    | close =>
      simp only [start, close] at h
      split at h
      · rename_i hnone
        cases h
        exact .closeNone hnone
      · rename_i c hc
        cases h
        exact .close hc
  | _ => cases r <;> cases h

/-- The checks between a signature and its use pass, or the call ends. -/
theorem moves_of_stillOpen {review : Bool} {next : Next D} (hp : p.holds = true)
    (h : stillOpen v review next = some (v', p', es))
    (hnext : v.closed = false → next = some (v', p', es) → Moves V v p v' p' es) :
    Moves V v p v' p' es := by
  rw [stillOpen] at h
  split_ifs at h with hclosed hreview
  · cases h
    exact .leave hp
  · exact hnext (Bool.not_eq_true _ ▸ hclosed) h
  · cases h
    exact .leave hp

theorem moves_of_confirmPending (hp : p.holds = true)
    (h : confirmPending v = some (v', p', es))
    (hnext : ∀ current, v.pending = some current → Moves V v p v (.receipt current) []) :
    Moves V v p v' p' es := by
  rw [confirmPending] at h
  split at h
  · cases h
    exact .fail hp
  · rename_i current hcurrent
    cases h
    exact hnext current hcurrent

theorem moves_of_settle {o : Outcome} (h : settle V S v p o = some (v', p', es)) :
    Moves V v p v' p' es := by
  cases p with
  | owner j =>
    cases o with
    | passes review =>
      cases h
      exact .chain
    | throws =>
      cases h
      exact .leave rfl
    | _ => cases h
  | chain j =>
    cases o with
    | passes review =>
      simp only [settle] at h
      split_ifs at h with hreview hclosed
      · cases h
        exact .leave rfl
      · cases h
        exact .entered (Bool.not_eq_true _ ▸ hclosed)
      · cases h
        exact .leave rfl
    | throws =>
      cases h
      exact .leave rfl
    | _ => cases h
  | entered j =>
    cases o with
    | passes review =>
      simp only [settle] at h
      split at h
      · rename_i hnone
        cases h
        exact .connect hnone
      · rename_i c hc
        rw [withConnection] at h
        split_ifs at h
        · cases h
          exact .ready hc
        · cases h
          exact .reject hc
    | _ => cases h
  | connecting j =>
    cases o with
    | connected address =>
      simp only [settle, withConnection] at h
      split_ifs at h
      · cases h
        exact .opened
      · cases h
        exact .openedWrong
    | throws =>
      cases h
      exact .fail rfl
    | _ => cases h
  | rejecting j =>
    cases o with
    | passes review =>
      cases h
      exact .rejected
    | throws =>
      cases h
      exact .fail rfl
    | _ => cases h
  | ready j ledger =>
    cases o with
    | passes review =>
      cases j with
      | send expected =>
        cases h
        exact .prepare
      | order data =>
        cases h
        exact .requestOrder
    | _ => cases j <;> cases h
  | preparing expected ledger =>
    cases o with
    | prepared t =>
      simp only [settle] at h
      split_ifs at h with hsame
      · split at h
        · cases h
          exact .leave rfl
        · cases h
          exact .request hsame.2.1
      · cases h
        exact .leave rfl
    | throws =>
      cases h
      exact .leave rfl
    | _ => cases h
  | signing t =>
    cases o with
    | signed s =>
      simp only [settle] at h
      split at h
      · cases h
        exact .leave rfl
      · cases h
        exact .recover
    | throws =>
      cases h
      exact .leave rfl
    | _ => cases h
  | recovering t raw =>
    cases o with
    | recovered address review =>
      simp only [settle] at h
      split_ifs at h with hsame
      · refine moves_of_stillOpen rfl h (fun hclosed hnext => ?_)
        cases hnext
        exact .checkOwner hclosed
      · cases h
        exact .leave rfl
    | throws =>
      cases h
      exact .leave rfl
    | _ => cases h
  | checkingOwner t raw =>
    cases o with
    | passes review =>
      cases h
      exact .checkChain
    | throws =>
      cases h
      exact .leave rfl
    | _ => cases h
  | checkingChain t raw =>
    cases o with
    | passes review =>
      refine moves_of_stillOpen rfl h (fun hclosed hnext => ?_)
      cases hnext
      exact .broadcast hclosed
    | throws =>
      cases h
      exact .leave rfl
    | _ => cases h
  | sending =>
    cases o with
    | sent hash =>
      simp only [settle] at h
      by_cases hsame : v.pending.any (fun p => sameText hash p.hash) = true
      · rw [if_pos hsame] at h
        exact moves_of_confirmPending rfl h (fun _ hpending => .confirm hpending)
      · rw [if_neg hsame] at h
        cases h
        exact .leave rfl
    | throws =>
      cases h
      exact .leave rfl
    | _ => cases h
  | receipt current =>
    cases o with
    | receipt transactionHash success =>
      simp only [settle] at h
      split_ifs at h with hsame
      · rw [confirmed] at h
        split_ifs at h with hsuccess
        · cases h
          exact .success
        · cases h
          exact .revert
      · cases h
        exact .fail rfl
    | throws =>
      cases h
      exact .fail rfl
    | _ => cases h
  | ordering =>
    cases o with
    | ordered signature =>
      cases h
      exact .recoverOrder
    | throws =>
      cases h
      exact .leave rfl
    | _ => cases h
  | recoveringOrder signature =>
    cases o with
    | recovered address review =>
      simp only [settle] at h
      split_ifs at h with hsame
      · refine moves_of_stillOpen rfl h (fun hclosed hnext => ?_)
        cases hnext
        exact .checkOrder hclosed
      · cases h
        exact .leave rfl
    | throws =>
      cases h
      exact .leave rfl
    | _ => cases h
  | checkingOrder signature =>
    cases o with
    | passes review =>
      refine moves_of_stillOpen rfl h (fun hclosed hnext => ?_)
      cases hnext
      exact .returned hclosed
    | throws =>
      cases h
      exact .leave rfl
    | _ => cases h
  | resumeOwner =>
    cases o with
    | passes review =>
      cases h
      exact .resumeChain
    | throws =>
      cases h
      exact .leave rfl
    | _ => cases h
  | resumeChain =>
    cases o with
    | passes review =>
      exact moves_of_confirmPending rfl h (fun _ hpending => .resumeConfirm hpending)
    | throws =>
      cases h
      exact .leave rfl
    | _ => cases h
  | leaving x =>
    cases o with
    | passes review =>
      cases h
      exact .leave rfl
    | _ => cases h
  | closing =>
    cases o with
    | passes review =>
      cases h
      exact .closed
    | throws =>
      cases h
      exact .notClosed
    | _ => cases h
  | done x => cases h

theorem mark_busy (v : Vars) (j : Job D) : (mark v j).busy = v.busy := by
  cases j with
  | send => rfl
  | order => rfl

/-- **`busy` is a lock.** -/
theorem signer_lock : Machine.Lock (signer V S) Phase.holds Vars.busy where
  start := by
    intro v r o v' p es h
    cases begins_of_start h with
    | refused _ => rfl
    | send _ hbusy => exact ⟨hbusy, rfl⟩
    | order _ hbusy => exact ⟨hbusy, rfl⟩
    | resume hbusy => exact ⟨hbusy, rfl⟩
    | closeNone => rfl
    | close => rfl
  settle := by
    intro v p o v' p' es h
    cases moves_of_settle h with
    | leave hp =>
      rw [if_pos hp]
      exact fun _ => rfl
    | fail hp =>
      rw [if_pos hp]
      exact id
    | connect => exact fun hbusy => (mark_busy _ _).trans hbusy
    | ready => exact fun hbusy => (mark_busy _ _).trans hbusy
    | reject => exact fun hbusy => (mark_busy _ _).trans hbusy
    | returned => exact fun _ => rfl
    | closed => exact ⟨rfl, rfl⟩
    | notClosed => exact ⟨rfl, rfl⟩
    | _ => exact id

end Bufi.LedgerSwap
