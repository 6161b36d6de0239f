import Bufi.Evm.Checks

/-!
# Two calls that agree

Two computations agree up to a relation when they fail with the same error or succeed
with related results.  The rules follow the shape of the computations: what agrees in
every part agrees as a whole, and a loop carries the relation from turn to turn.
-/

namespace Bufi.Evm

/-- The same error, or related results. -/
inductive Agree {ε α β : Type} (R : α → β → Prop) : Except ε α → Except ε β → Prop
  | error (e : ε) : Agree R (.error e) (.error e)
  | ok {a : α} {b : β} (h : R a b) : Agree R (.ok a) (.ok b)

namespace Agree

variable {ε α β γ δ κ : Type} {R : α → β → Prop} {Q : γ → δ → Prop}

theorem pure {a : α} {b : β} (h : R a b) :
    Agree R (Pure.pure a : Except ε α) (Pure.pure b : Except ε β) := .ok h

theorem eq {x y : Except ε α} (h : Agree (· = ·) x y) : x = y := by
  cases h with
  | error e => rfl
  | ok h => rw [h]

theorem eq_error {e : ε} {y : Except ε β} (h : Agree R (.error e) y) : y = .error e := by
  cases h with
  | error e => rfl

theorem exists_ok {a : α} {y : Except ε β} (h : Agree R (.ok a) y) : ∃ b, y = .ok b ∧ R a b := by
  cases h with
  | ok h => exact ⟨_, rfl, h⟩

theorem mono {x : Except ε α} {y : Except ε β} {P : α → β → Prop} (h : Agree R x y)
    (hRP : ∀ a b, R a b → P a b) : Agree P x y := by
  cases h with
  | error e => exact .error e
  | ok h => exact .ok (hRP _ _ h)

theorem bind {x : Except ε α} {y : Except ε β} {f : α → Except ε γ} {g : β → Except ε δ}
    (h : Agree R x y) (hfg : ∀ a b, R a b → Agree Q (f a) (g b)) : Agree Q (x >>= f) (y >>= g) := by
  cases h with
  | error e => exact .error e
  | ok h => exact hfg _ _ h

theorem map {x : Except ε α} {y : Except ε β} {f : α → γ} {g : β → δ} (h : Agree R x y)
    (hfg : ∀ a b, R a b → Q (f a) (g b)) : Agree Q (x.map f) (y.map g) := by
  cases h with
  | error e => exact .error e
  | ok h => exact .ok (hfg _ _ h)

/-- The same first part. -/
theorem bind_same {x : Except ε α} {f : α → Except ε γ} {g : α → Except ε δ}
    (hfg : ∀ a, Agree Q (f a) (g a)) : Agree Q (x >>= f) (x >>= g) := by
  cases x with
  | error e => exact .error e
  | ok a => exact hfg a

theorem foldlM {f : α → κ → Except ε α} {g : β → κ → Except ε β} {l : List κ} {a : α} {b : β}
    (h : R a b) (hfg : ∀ a b k, R a b → Agree R (f a k) (g b k)) :
    Agree R (l.foldlM f a) (l.foldlM g b) := by
  induction l generalizing a b with
  | nil => exact .ok h
  | cons k l ih =>
    rw [List.foldlM_cons, List.foldlM_cons]
    exact (hfg a b k h).bind (fun a' b' h' => ih h')

/-- What holds of every result of the left call may be used. -/
theorem and_left {x : Except ε α} {y : Except ε β} {P : α → Prop} (h : Agree R x y)
    (hx : ∀ a, x = .ok a → P a) : Agree (fun a b => R a b ∧ P a) x y := by
  cases h with
  | error e => exact .error e
  | ok h => exact .ok ⟨h, hx _ rfl⟩

theorem and_right {x : Except ε α} {y : Except ε β} {P : β → Prop} (h : Agree R x y)
    (hy : ∀ b, y = .ok b → P b) : Agree (fun a b => R a b ∧ P b) x y := by
  cases h with
  | error e => exact .error e
  | ok h => exact .ok ⟨h, hy _ rfl⟩

end Agree

end Bufi.Evm
