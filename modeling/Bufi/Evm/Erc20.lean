import Mathlib.Algebra.BigOperators.Group.List.Basic
import Mathlib.Algebra.Order.Ring.Int
import Mathlib.Data.Nat.Cast.Order.Ring
import Mathlib.Tactic.Push

/-!
# Ledgers of tokens

The balances and allowances of any number of tokens.  An operation is named with
the account that calls it (`Op.actor`), and `none` is an operation that reverts.
An allowance of the largest value is not used up.

What a list of operations does to a balance is the sum of its amounts there,
`net` (`applyAll_balance`).  An allowance grows only by an approval of the owner
(`applyAll_allowance_le`), and without one the balance does not fall unless the
owner acts (`le_balance_of_apply`).  Up to its allowance a spender may take the
balance; `Kept` says that it takes no more, and composes.
-/

namespace Bufi.Evm.Erc20

variable {T A : Type} [DecidableEq T] [DecidableEq A]

structure Ledger (T A : Type) where
  balance : T → A → ℕ
  /-- What `spender` may still take of `owner`, by token, owner and spender. -/
  allowance : T → A → A → ℕ

def maxAllowance : ℕ := 2 ^ 256 - 1

inductive Op (T A : Type)
  | transfer (token : T) (sender recipient : A) (amount : ℕ)
  | transferFrom (token : T) (spender owner recipient : A) (amount : ℕ)
  | approve (token : T) (owner spender : A) (amount : ℕ)
  | mint (token : T) (recipient : A) (amount : ℕ)
  | burn (token : T) (holder : A) (amount : ℕ)
  deriving DecidableEq

/-- The account that calls the token; a mint is the token's own. -/
def Op.actor : Op T A → Option A
  | transfer _ sender _ _ => some sender
  | transferFrom _ spender _ _ _ => some spender
  | approve _ owner _ _ => some owner
  | mint _ _ _ => none
  | burn _ holder _ => some holder

/-- The token and the account that an operation gives something to. -/
def Op.recipient : Op T A → Option (T × A)
  | transfer token _ recipient _ => some (token, recipient)
  | transferFrom token _ _ recipient _ => some (token, recipient)
  | approve _ _ _ _ => none
  | mint token recipient _ => some (token, recipient)
  | burn _ _ _ => none

namespace Ledger

variable (l : Ledger T A)

def setBalance (token : T) (a : A) (n : ℕ) : Ledger T A :=
  { l with balance := fun t b => if t = token ∧ b = a then n else l.balance t b }

def setAllowance (token : T) (owner spender : A) (n : ℕ) : Ledger T A :=
  { l with allowance := fun t o s =>
      if t = token ∧ o = owner ∧ s = spender then n else l.allowance t o s }

def credit (token : T) (a : A) (amount : ℕ) : Ledger T A :=
  l.setBalance token a (l.balance token a + amount)

def debit (token : T) (a : A) (amount : ℕ) : Option (Ledger T A) :=
  if amount ≤ l.balance token a then some (l.setBalance token a (l.balance token a - amount))
  else none

def move (token : T) (src dst : A) (amount : ℕ) : Option (Ledger T A) :=
  (l.debit token src amount).map (fun l => l.credit token dst amount)

def spend (token : T) (owner spender : A) (amount : ℕ) : Option (Ledger T A) :=
  if l.allowance token owner spender = maxAllowance then some l
  else if amount ≤ l.allowance token owner spender then
    some (l.setAllowance token owner spender (l.allowance token owner spender - amount))
  else none

end Ledger

def Op.apply : Op T A → Ledger T A → Option (Ledger T A)
  | transfer token sender recipient amount, l => l.move token sender recipient amount
  | transferFrom token spender owner recipient amount, l =>
    (l.spend token owner spender amount).bind (fun l => l.move token owner recipient amount)
  | approve token owner spender amount, l => some (l.setAllowance token owner spender amount)
  | mint token recipient amount, l => some (l.credit token recipient amount)
  | burn token holder amount, l => l.debit token holder amount

def applyAll : List (Op T A) → Ledger T A → Option (Ledger T A)
  | [], l => some l
  | op :: ops, l => (op.apply l).bind (applyAll ops)

/-- An amount that counts at one token and account. -/
def amountAt (token t : T) (b a : A) (amount : ℕ) : ℤ := if t = token ∧ a = b then amount else 0

/-- What an operation adds to the balance of `a` in `t`. -/
def Op.delta (t : T) (a : A) : Op T A → ℤ
  | transfer token sender recipient amount =>
    amountAt token t recipient a amount - amountAt token t sender a amount
  | transferFrom token _ owner recipient amount =>
    amountAt token t recipient a amount - amountAt token t owner a amount
  | approve _ _ _ _ => 0
  | mint token recipient amount => amountAt token t recipient a amount
  | burn token holder amount => -amountAt token t holder a amount

/-- What a list of operations adds to it. -/
def net (t : T) (a : A) (ops : List (Op T A)) : ℤ := (ops.map (Op.delta t a)).sum

/-! ### One operation -/

section

variable {l l' : Ledger T A} {token t : T} {a b o s : A} {amount : ℕ}

@[simp] theorem setAllowance_balance : (l.setAllowance token a b amount).balance = l.balance := rfl

theorem setAllowance_of_ne (h : ¬(t = token ∧ o = a ∧ s = b)) :
    (l.setAllowance token a b amount).allowance t o s = l.allowance t o s := if_neg h

@[simp] theorem credit_allowance : (l.credit token a amount).allowance = l.allowance := rfl

theorem credit_balance :
    ((l.credit token b amount).balance t a : ℤ) = l.balance t a + amountAt token t b a amount := by
  simp only [Ledger.credit, Ledger.setBalance, amountAt]
  split_ifs with h
  · obtain ⟨rfl, rfl⟩ := h
    push_cast
    rfl
  · simp

theorem debit_eq_some (h : l.debit token b amount = some l') :
    amount ≤ l.balance token b ∧ l'.allowance = l.allowance
      ∧ ∀ t a, (l'.balance t a : ℤ) = l.balance t a - amountAt token t b a amount := by
  rw [Ledger.debit] at h
  obtain ⟨hle, h⟩ := Option.ite_none_right_eq_some.mp h
  obtain rfl := Option.some.inj h
  refine ⟨hle, rfl, fun t a => ?_⟩
  simp only [Ledger.setBalance, amountAt]
  split_ifs with h
  · obtain ⟨rfl, rfl⟩ := h
    exact Nat.cast_sub hle
  · simp

theorem move_eq_some (h : l.move token a b amount = some l') :
    amount ≤ l.balance token a ∧ l'.allowance = l.allowance
      ∧ ∀ t c, (l'.balance t c : ℤ)
        = l.balance t c - amountAt token t a c amount + amountAt token t b c amount := by
  obtain ⟨m, hm, rfl⟩ := Option.map_eq_some_iff.mp h
  obtain ⟨hle, hallow, hbal⟩ := debit_eq_some hm
  refine ⟨hle, by rw [credit_allowance, hallow], fun t c => ?_⟩
  rw [credit_balance, hbal]

theorem spend_eq_some (h : l.spend token o s amount = some l') :
    l'.balance = l.balance ∧ (∀ t a b, l'.allowance t a b ≤ l.allowance t a b)
      ∧ (l.allowance token o s = 0 → amount = 0) := by
  rw [Ledger.spend] at h
  split_ifs at h with hmax hle
  · obtain rfl := Option.some.inj h
    refine ⟨rfl, fun _ _ _ => le_rfl, fun hz => ?_⟩
    rw [hz, maxAllowance] at hmax
    omega
  · obtain rfl := Option.some.inj h
    refine ⟨rfl, fun t a b => ?_, fun hz => by omega⟩
    simp only [Ledger.setAllowance]
    split_ifs with hk
    · obtain ⟨rfl, rfl, rfl⟩ := hk
      exact Nat.sub_le _ _
    · exact le_rfl

theorem apply_balance {op : Op T A} (h : op.apply l = some l') (t : T) (a : A) :
    (l'.balance t a : ℤ) = l.balance t a + op.delta t a := by
  cases op with
  | transfer token sender recipient amount =>
    rw [(move_eq_some h).2.2, Op.delta]
    omega
  | transferFrom token spender owner recipient amount =>
    obtain ⟨m, hspend, hmove⟩ := Option.bind_eq_some_iff.mp h
    rw [(move_eq_some hmove).2.2, (spend_eq_some hspend).1, Op.delta]
    omega
  | approve token owner spender amount =>
    obtain rfl := Option.some.inj h
    rw [Op.delta, add_zero, setAllowance_balance]
  | mint token recipient amount =>
    obtain rfl := Option.some.inj h
    exact credit_balance
  | burn token holder amount => exact (debit_eq_some h).2.2 t a

theorem delta_nonpos {op : Op T A} (h : op.recipient ≠ some (t, a)) : op.delta t a ≤ 0 := by
  have hnone : ∀ {token b}, op.recipient = some (token, b) → ¬(t = token ∧ a = b) := by
    rintro token b hr ⟨rfl, rfl⟩
    exact h hr
  cases op with
  | transfer token sender recipient amount =>
    simp only [Op.delta, amountAt, hnone rfl, if_false]
    split_ifs <;> omega
  | transferFrom token spender owner recipient amount =>
    simp only [Op.delta, amountAt, hnone rfl, if_false]
    split_ifs <;> omega
  | approve token owner spender amount => exact le_rfl
  | mint token recipient amount => simp only [Op.delta, amountAt, hnone rfl, if_false, le_refl]
  | burn token holder amount =>
    simp only [Op.delta, amountAt]
    split_ifs <;> omega

/-- Only an approval of the owner raises an allowance. -/
theorem apply_allowance_le {op : Op T A} (h : op.apply l = some l')
    (hop : ∀ t s n, op ≠ .approve t o s n) : l'.allowance t o s ≤ l.allowance t o s := by
  cases op with
  | transfer token sender recipient amount => rw [(move_eq_some h).2.1]
  | transferFrom token spender owner recipient amount =>
    obtain ⟨m, hspend, hmove⟩ := Option.bind_eq_some_iff.mp h
    rw [(move_eq_some hmove).2.1]
    exact (spend_eq_some hspend).2.1 t o s
  | approve token owner spender amount =>
    obtain rfl := Option.some.inj h
    simp only [Ledger.setAllowance]
    rw [if_neg]
    rintro ⟨-, rfl, -⟩
    exact hop _ _ _ rfl
  | mint token recipient amount =>
    obtain rfl := Option.some.inj h
    exact le_rfl
  | burn token holder amount => rw [(debit_eq_some h).2.1]

omit [DecidableEq T] [DecidableEq A] in
theorem ne_approve {op : Op T A} (hactor : op.actor ≠ some o) (t : T) (s : A) (n : ℕ) :
    op ≠ .approve t o s n := by
  rintro rfl
  exact hactor rfl

/-- Only the account itself and those who pull its tokens lower its balance. -/
theorem le_balance_of_ne {op : Op T A} (h : op.apply l = some l') (hactor : op.actor ≠ some a)
    (hpull : ∀ spender recipient n, op ≠ .transferFrom t spender a recipient n) :
    l.balance t a ≤ l'.balance t a := by
  have hbal := apply_balance h t a
  have hdelta : 0 ≤ op.delta t a := by
    cases op with
    | transfer token sender recipient amount =>
      have hne : a ≠ sender := fun he => hactor (he ▸ rfl)
      simp only [Op.delta, amountAt, hne, and_false, if_false]
      split_ifs <;> omega
    | transferFrom token spender owner recipient amount =>
      have hne : ¬(t = token ∧ a = owner) := by
        rintro ⟨rfl, rfl⟩
        exact hpull _ _ _ rfl
      simp only [Op.delta, amountAt, hne, if_false]
      split_ifs <;> omega
    | approve token owner spender amount => exact le_rfl
    | mint token recipient amount =>
      simp only [Op.delta, amountAt]
      split_ifs <;> omega
    | burn token holder amount =>
      have hne : a ≠ holder := fun he => hactor (he ▸ rfl)
      simp only [Op.delta, amountAt, hne, and_false, if_false]
      omega
  omega

theorem le_balance_of_transferFrom {spender recipient : A}
    (h : (Op.transferFrom t spender a recipient amount).apply l = some l') :
    l.balance t a ≤ l'.balance t a + amount := by
  have hbal := apply_balance h t a
  simp only [Op.delta, amountAt] at hbal
  split_ifs at hbal <;> omega

/-- Without an allowance nobody else takes anything. -/
theorem le_balance_of_apply {op : Op T A} (h : op.apply l = some l') (hactor : op.actor ≠ some a)
    (hzero : ∀ s, l.allowance t a s = 0) : l.balance t a ≤ l'.balance t a := by
  by_cases hpull : ∃ spender recipient n, op = .transferFrom t spender a recipient n
  · obtain ⟨spender, recipient, n, rfl⟩ := hpull
    obtain ⟨m, hspend, -⟩ := Option.bind_eq_some_iff.mp h
    obtain rfl := (spend_eq_some hspend).2.2 (hzero spender)
    exact le_balance_of_transferFrom h
  · exact le_balance_of_ne h hactor (fun _ _ _ heq => hpull ⟨_, _, _, heq⟩)

theorem spend_of_lt (h : l.spend token o s amount = some l')
    (hmax : l.allowance token o s < maxAllowance) :
    l'.allowance token o s + amount = l.allowance token o s := by
  rw [Ledger.spend, if_neg hmax.ne] at h
  obtain ⟨hle, h⟩ := Option.ite_none_right_eq_some.mp h
  obtain rfl := Option.some.inj h
  simp only [Ledger.setAllowance, and_self, if_true]
  omega

end

/-! ### What a spender can take -/

/-- The allowance does not grow, and it is used up or has fallen by as much as the balance. -/
structure Kept (t : T) (owner spender : A) (l l' : Ledger T A) : Prop where
  allowance_le : l'.allowance t owner spender ≤ l.allowance t owner spender
  balance_le : l.allowance t owner spender < maxAllowance →
    l'.allowance t owner spender = 0 ∨
      l.balance t owner + l'.allowance t owner spender
        ≤ l'.balance t owner + l.allowance t owner spender

namespace Kept

variable {t : T} {owner spender : A} {l m l' : Ledger T A}

omit [DecidableEq T] [DecidableEq A] in
theorem of_balance_le (hallow : l'.allowance t owner spender ≤ l.allowance t owner spender)
    (hbal : l.balance t owner ≤ l'.balance t owner) : Kept t owner spender l l' :=
  ⟨hallow, fun _ => .inr (Nat.add_le_add hbal hallow)⟩

omit [DecidableEq T] [DecidableEq A] in
theorem refl : Kept t owner spender l l := of_balance_le le_rfl le_rfl

omit [DecidableEq T] [DecidableEq A] in
theorem trans (h : Kept t owner spender l m) (h' : Kept t owner spender m l') :
    Kept t owner spender l l' := by
  refine ⟨h'.allowance_le.trans h.allowance_le, fun hmax => ?_⟩
  have hle := h'.allowance_le
  rcases h'.balance_le (h.allowance_le.trans_lt hmax) with hzero | hlater
  · exact .inl hzero
  · rcases h.balance_le hmax with hzero | hfirst
    · exact .inl (by omega)
    · exact .inr (by omega)

/-- A pull lowers both by what it takes. -/
theorem transferFrom {recipient : A} {n : ℕ}
    (h : (Op.transferFrom t spender owner recipient n).apply l = some l') :
    Kept t owner spender l l' := by
  have hbal := le_balance_of_transferFrom h
  obtain ⟨m, hspend, hmove⟩ := Option.bind_eq_some_iff.mp h
  have hallow := (move_eq_some hmove).2.1
  refine ⟨?_, fun hmax => .inr ?_⟩
  · rw [hallow]
    exact (spend_eq_some hspend).2.1 t owner spender
  · have hspent := spend_of_lt hspend hmax
    rw [hallow]
    omega

/-- Others than the owner act, and nobody but the spender pulls. -/
theorem of_apply {op : Op T A} (h : op.apply l = some l') (hactor : op.actor ≠ some owner)
    (hpull : ∀ s recipient n, op = .transferFrom t s owner recipient n → s = spender) :
    Kept t owner spender l l' := by
  by_cases hop : ∃ s recipient n, op = .transferFrom t s owner recipient n
  · obtain ⟨s, recipient, n, rfl⟩ := hop
    obtain rfl := hpull _ _ _ rfl
    exact .transferFrom h
  · exact .of_balance_le (apply_allowance_le h (ne_approve hactor))
      (le_balance_of_ne h hactor (fun _ _ _ heq => hop ⟨_, _, _, heq⟩))

end Kept

/-! ### Lists of operations -/

section

variable {l l' : Ledger T A} {t : T} {a o s : A} {ops : List (Op T A)}

@[simp] theorem net_nil : net t a ([] : List (Op T A)) = 0 := rfl

theorem net_append (ops' : List (Op T A)) : net t a (ops ++ ops') = net t a ops + net t a ops' := by
  simp [net]

@[simp] theorem net_cons (op : Op T A) : net t a (op :: ops) = op.delta t a + net t a ops :=
  List.sum_cons

theorem net_nonpos (h : ∀ op ∈ ops, op.recipient ≠ some (t, a)) : net t a ops ≤ 0 := by
  induction ops with
  | nil => exact le_rfl
  | cons op ops ih =>
    have hfirst := delta_nonpos (h op List.mem_cons_self)
    have hrest := ih (fun op' hop => h op' (List.mem_cons_of_mem _ hop))
    rw [net_cons]
    omega

theorem applyAll_cons {op : Op T A} (h : applyAll (op :: ops) l = some l') :
    ∃ m, op.apply l = some m ∧ applyAll ops m = some l' := Option.bind_eq_some_iff.mp h

/-- **A balance changes by what the operations add to it.** -/
theorem applyAll_balance (h : applyAll ops l = some l') (t : T) (a : A) :
    (l'.balance t a : ℤ) = l.balance t a + net t a ops := by
  induction ops generalizing l with
  | nil =>
    obtain rfl := Option.some.inj h
    rw [net_nil, add_zero]
  | cons op ops ih =>
    obtain ⟨m, hop, hrest⟩ := applyAll_cons h
    rw [ih hrest, apply_balance hop, net_cons]
    omega

theorem applyAll_allowance_le (h : applyAll ops l = some l') (hactor : ∀ op ∈ ops, op.actor ≠ some o) :
    l'.allowance t o s ≤ l.allowance t o s := by
  induction ops generalizing l with
  | nil =>
    obtain rfl := Option.some.inj h
    exact le_rfl
  | cons op ops ih =>
    obtain ⟨m, hop, hrest⟩ := applyAll_cons h
    exact (ih hrest (fun op' hm => hactor op' (List.mem_cons_of_mem _ hm))).trans
      (apply_allowance_le hop (ne_approve (hactor op List.mem_cons_self)))

end

end Bufi.Evm.Erc20
