import Bufi.Treasury.Quorum

/-!
# The walk over a signature blob is safe

Offsets and lengths in the blob are words that the caller chooses.  `sigTurns` are the
states in which `_checkWeightedSigs` enters the body of its loop, and each is one of
`loopState l` for which another slot fits (`mem_sigTurns`).  So there is a turn for each
slot at most, no turn panics, and what a turn reads is in the blob: the result is the
same whatever the memory behind the blob holds (`checkWeightedSigs_withBeyond`).
-/

namespace Bufi.Treasury

open Bufi.Evm Bufi.Gateway

section

variable {W : Type} (O : SigOracle W) (treasury : Address) (S : Signers) (hash : W) (sigs : MemBytes)

/-- The states in which the body of the loop is entered, from `st` on. -/
def sigTurns : ℕ → SigLoop → List SigLoop
  | 0, _ => []
  | fuel + 1, st =>
    if (st.i + 1) * 65 ≤ st.staticEnd then
      st :: (match sigStep O treasury S hash sigs st with
        | some (.next st') => sigTurns fuel st'
        | _ => [])
    else []

/-- The state before the first turn. -/
def sigStart : SigLoop := ⟨0, sigs.data.length, 0, 0⟩

/-- What holds of a turn: `r`, `s` and `v` are in the blob, none of its checked operations
fails, and an offset that passes the comparisons has its length word in the blob. -/
structure TurnSafe (st : SigLoop) : Prop where
  slot_inside : st.i * 65 + 65 ≤ sigs.data.length
  no_panic : ∃ f, sigStep O treasury S hash sigs st = some f
  length_inside : slotOffset sigs.data st.i ≤ sigs.data.length - 32 →
    slotOffset sigs.data st.i + 32 ≤ sigs.data.length

/-- The oracles with another memory behind the blob. -/
def withBeyond (beyond : Memory) : SigOracle W := { O with beyond := beyond }

variable {O treasury S hash sigs}

theorem sigTurns_of_not_fit (fuel : ℕ) {l : List Address}
    (hfit : ¬ 65 * (l.length + 1) ≤ staticEndOf sigs.data l.length) :
    sigTurns O treasury S hash sigs fuel (loopState S sigs.data l) = [] := by
  cases fuel with
  | zero => rfl
  | succ fuel =>
    have hstop : ¬ (l.length + 1) * 65 ≤ staticEndOf sigs.data l.length := by omega
    exact if_neg hstop

theorem sigTurns_of_fit (fuel : ℕ) {l : List Address}
    (hl : SignedPrefix O treasury S hash sigs.data l)
    (hfit : 65 * (l.length + 1) ≤ staticEndOf sigs.data l.length) :
    sigTurns O treasury S hash sigs (fuel + 1) (loopState S sigs.data l) = [loopState S sigs.data l]
      ∨ ∃ a, SignedPrefix O treasury S hash sigs.data (l ++ [a])
        ∧ sigTurns O treasury S hash sigs (fuel + 1) (loopState S sigs.data l)
          = loopState S sigs.data l
            :: sigTurns O treasury S hash sigs fuel (loopState S sigs.data (l ++ [a])) := by
  have hgo : (l.length + 1) * 65 ≤ staticEndOf sigs.data l.length := by omega
  rcases sigStep_cases hl hfit with hret | ⟨a, ha, hnext⟩
  · left
    rw [sigTurns, hret]
    exact if_pos hgo
  · refine Or.inr ⟨a, ha, ?_⟩
    rw [sigTurns, hnext]
    exact if_pos hgo

/-- **A turn starts where another slot fits**, after the slots before it. -/
theorem mem_sigTurns (fuel : ℕ) : ∀ {l : List Address},
    SignedPrefix O treasury S hash sigs.data l →
    ∀ st ∈ sigTurns O treasury S hash sigs fuel (loopState S sigs.data l),
      ∃ l', SignedPrefix O treasury S hash sigs.data l'
        ∧ 65 * (l'.length + 1) ≤ staticEndOf sigs.data l'.length
        ∧ st = loopState S sigs.data l' := by
  induction fuel with
  | zero =>
    intro l _ st hst
    cases hst
  | succ fuel ih =>
    intro l hl st hst
    by_cases hfit : 65 * (l.length + 1) ≤ staticEndOf sigs.data l.length
    swap
    · rw [sigTurns_of_not_fit _ hfit] at hst
      cases hst
    rcases sigTurns_of_fit fuel hl hfit with hone | ⟨a, ha, hmore⟩
    · rw [hone, List.mem_singleton] at hst
      exact ⟨l, hl, hfit, hst⟩
    · rw [hmore, List.mem_cons] at hst
      obtain rfl | hst := hst
      · exact ⟨l, hl, hfit, rfl⟩
      · exact ih ha st hst

/-- **There is at most one turn for each slot**, however long the loop may run. -/
theorem length_sigTurns_le (fuel : ℕ) : ∀ {l : List Address},
    SignedPrefix O treasury S hash sigs.data l →
    (sigTurns O treasury S hash sigs fuel (loopState S sigs.data l)).length + l.length
      ≤ sigs.data.length / 65 := by
  induction fuel with
  | zero =>
    intro l hl
    have hle := hl.length_le
    show 0 + l.length ≤ sigs.data.length / 65
    omega
  | succ fuel ih =>
    intro l hl
    have hle := hl.length_le
    by_cases hfit : 65 * (l.length + 1) ≤ staticEndOf sigs.data l.length
    swap
    · rw [sigTurns_of_not_fit _ hfit, List.length_nil]
      omega
    have hend := staticEndOf_le_length sigs.data l.length
    rcases sigTurns_of_fit fuel hl hfit with hone | ⟨a, ha, hmore⟩
    · rw [hone, List.length_singleton]
      omega
    · have hrest := ih ha
      rw [List.length_append, List.length_singleton] at hrest
      rw [hmore, List.length_cons]
      omega

/-- **A turn is safe.** -/
theorem turnSafe_of_mem {fuel : ℕ} {st : SigLoop}
    (h : st ∈ sigTurns O treasury S hash sigs fuel (sigStart sigs)) :
    TurnSafe O treasury S hash sigs st := by
  obtain ⟨l, hl, hfit, rfl⟩ := mem_sigTurns fuel (signedPrefix_nil O treasury S hash sigs.data) st h
  have hend := staticEndOf_le_length sigs.data l.length
  refine ⟨?_, ⟨_, sigStep_eq O treasury S hash (loopState_inRange hfit)⟩, ?_⟩
  · show l.length * 65 + 65 ≤ sigs.data.length
    omega
  · intro hle
    omega

/-! ### The memory behind the blob -/

theorem slotSigner_withBeyond (beyond : Memory) (b : Bytes) (i : ℕ) :
    slotSigner (withBeyond O beyond) treasury hash b i = slotSigner O treasury hash b i := rfl

/-- From a state of the walk, the loop does not see what is behind the blob. -/
theorem sigLoop_withBeyond (beyond : Memory) (fuel : ℕ) : ∀ {l : List Address},
    SignedPrefix O treasury S hash sigs.data l →
    sigLoop (withBeyond O beyond) treasury S hash sigs fuel (loopState S sigs.data l)
      = sigLoop O treasury S hash sigs fuel (loopState S sigs.data l) := by
  induction fuel with
  | zero =>
    intro l _
    rfl
  | succ fuel ih =>
    intro l hl
    rw [sigLoop_succ fuel hl.length_le, sigLoop_succ fuel hl.length_le]
    by_cases hfit : 65 * (l.length + 1) ≤ staticEndOf sigs.data l.length
    swap
    · rw [if_neg hfit, if_neg hfit]
    have hsame : sigStep (withBeyond O beyond) treasury S hash sigs (loopState S sigs.data l)
        = sigStep O treasury S hash sigs (loopState S sigs.data l) := by
      rw [sigStep_eq _ treasury S hash (loopState_inRange hfit),
        sigStep_eq O treasury S hash (loopState_inRange hfit), slotSigner_withBeyond]
    rw [if_pos hfit, if_pos hfit, hsame]
    rcases sigStep_cases hl hfit with hret | ⟨a, ha, hnext⟩
    · rw [hret, Option.bind_some, Option.bind_some]
    · rw [hnext, Option.bind_some, Option.bind_some]
      exact ih ha

/-- **Every word whose value matters lies inside the blob.** -/
theorem checkWeightedSigs_withBeyond (beyond : Memory) :
    checkWeightedSigs (withBeyond O beyond) treasury S hash sigs
      = checkWeightedSigs O treasury S hash sigs := by
  have hloop := sigLoop_withBeyond beyond (sigs.data.length / 65 + 1)
    (signedPrefix_nil O treasury S hash sigs.data)
  have hstart : loopState S sigs.data [] = ⟨0, sigs.data.length, 0, 0⟩ := rfl
  rw [hstart] at hloop
  rw [checkWeightedSigs, checkWeightedSigs, hloop]

/-- **The check of a signature blob is safe**: it gives an answer, after a turn for each
slot at most; no turn panics or reads outside the blob, the answer does not depend on the
memory behind it, and a contract owner is handed exactly its part. -/
theorem checkWeightedSigs_safe (O : SigOracle W) (treasury : Address) (S : Signers) (hash : W)
    (sigs : MemBytes) :
    (∃ v, checkWeightedSigs O treasury S hash sigs = some v)
    ∧ (∀ fuel, (sigTurns O treasury S hash sigs fuel (sigStart sigs)).length
        ≤ sigs.data.length / 65)
    ∧ (∀ fuel, ∀ st ∈ sigTurns O treasury S hash sigs fuel (sigStart sigs),
        TurnSafe O treasury S hash sigs st)
    ∧ (∀ beyond, checkWeightedSigs (withBeyond O beyond) treasury S hash sigs
        = checkWeightedSigs O treasury S hash sigs)
    ∧ ∀ offset dynLen, offset + 32 + dynLen ≤ sigs.data.length →
        sliceCopy (inMemory sigs.data O.beyond) (offset + 32) dynLen
          = (sigs.data.drop (offset + 32)).take dynLen := by
  refine ⟨checkWeightedSigs_total O treasury S hash sigs, ?_, ?_, ?_, ?_⟩
  · intro fuel
    exact length_sigTurns_le fuel (signedPrefix_nil O treasury S hash sigs.data)
  · intro fuel st hst
    exact turnSafe_of_mem hst
  · intro beyond
    exact checkWeightedSigs_withBeyond beyond
  · intro offset dynLen hle
    exact sliceCopy_eq O.beyond hle

end

end Bufi.Treasury
