import Bufi.Evm.Word

/-!
# Linked sets

A linked set of addresses is a mapping from each element to the next one, from
a sentinel on.  A value is removed by whoever can name its predecessor, and the
zero address is never in the set.

`LinkedSet S` is what a contract sees of one, `S` being the set of one account:
the operations and what they do to membership.  `LinkedSet.list` is the list
of the elements, the latest first, which is the order a linked set has them in.
-/

namespace Bufi.Evm

/-- A set of non-zero addresses, with the operations of a linked list. -/
structure LinkedSet (S : Type) where
  empty : S
  contains : S → Address → Bool
  isEmpty : S → Bool
  getAll : S → List Address
  tryAdd : S → Address → Option S
  tryRemoveKnown : S → Address → Bytes32 → Option S
  clear : S → S
  contains_empty : ∀ a, contains empty a = false
  isEmpty_iff : ∀ s, isEmpty s = true ↔ ∀ a, contains s a = false
  mem_getAll : ∀ s a, a ∈ getAll s ↔ contains s a = true
  isSome_tryAdd : ∀ s a, (tryAdd s a).isSome ↔ a ≠ 0 ∧ contains s a = false
  contains_tryAdd : ∀ {s a s'}, tryAdd s a = some s' →
    ∀ b, contains s' b = true ↔ b = a ∨ contains s b = true
  contains_of_tryRemoveKnown : ∀ {s a p s'}, tryRemoveKnown s a p = some s' →
    contains s a = true
  contains_tryRemoveKnown : ∀ {s a p s'}, tryRemoveKnown s a p = some s' →
    ∀ b, contains s' b = true ↔ b ≠ a ∧ contains s b = true
  contains_clear : ∀ s a, contains (clear s) a = false

namespace LinkedSet

variable {S : Type} (L : LinkedSet S)

theorem of_tryAdd {s s' : S} {a : Address} (h : L.tryAdd s a = some s') :
    a ≠ 0 ∧ L.contains s a = false :=
  (L.isSome_tryAdd s a).mp (by rw [h]; rfl)

/-! ### The set as a list -/

/-- `SENTINEL_VALUE`, the predecessor of the first element. -/
def sentinel : Bytes32 := 1

/-- The word an element is linked by, `bytes32(bytes20(a))`. -/
def link (a : Address) : Bytes32 := toBytes32 a <<< 96

/-- The predecessor of `a` in a list whose first element follows `p`. -/
def predecessorFrom (a : Address) : Bytes32 → List Address → Option Bytes32
  | _, [] => none
  | p, b :: l => if b = a then some p else predecessorFrom a (link b) l

theorem mem_of_predecessorFrom {a : Address} {p q : Bytes32} {l : List Address}
    (h : predecessorFrom a p l = some q) : a ∈ l := by
  induction l generalizing p with
  | nil => exact absurd h (by simp [predecessorFrom])
  | cons b l ih =>
    rw [predecessorFrom] at h
    by_cases hb : b = a
    · exact List.mem_cons.mpr (.inl hb.symm)
    · rw [if_neg hb] at h
      exact List.mem_cons_of_mem _ (ih h)

/-- The linked set as the list of its elements, the latest first. -/
def list : LinkedSet (List Address) where
  empty := []
  contains l a := decide (a ∈ l)
  isEmpty l := l.isEmpty
  getAll l := l
  tryAdd l a := if a ≠ 0 ∧ a ∉ l then some (a :: l) else none
  tryRemoveKnown l a p :=
    if predecessorFrom a sentinel l = some p then some (l.filter (· ≠ a)) else none
  clear _ := []
  contains_empty a := by simp
  isEmpty_iff l := by
    rw [List.isEmpty_iff, List.eq_nil_iff_forall_not_mem]
    simp
  mem_getAll l a := by simp
  isSome_tryAdd l a := by simp
  contains_tryAdd := by
    intro l a l' h b
    rw [Option.ite_none_right_eq_some, Option.some.injEq] at h
    rw [← h.2]
    simp
  contains_of_tryRemoveKnown := by
    intro l a p l' h
    rw [Option.ite_none_right_eq_some] at h
    exact decide_eq_true (mem_of_predecessorFrom h.1)
  contains_tryRemoveKnown := by
    intro l a p l' h b
    rw [Option.ite_none_right_eq_some, Option.some.injEq] at h
    rw [← h.2]
    simp [and_comm]
  contains_clear l a := by simp

end LinkedSet

end Bufi.Evm
