import Mathlib.Data.List.Basic

/-!
# Programs that may fail

A program is an `Except`, or an `Except` over a state.  `Returns` says that it gives a value
and no error.  `Total P x Q` is total correctness: from every state with `P` the program
gives a value and ends in a state with `Q`.  There is one rule for each way to put programs
together; a loop is handled with what every round keeps.
-/

namespace Bufi.Logic

variable {ε σ α β : Type}

/-! ### Without a state -/

/-- Both parts of a program that gives a value do. -/
theorem bind_eq_ok {x : Except ε α} {f : α → Except ε β} {b : β} :
    (x >>= f) = .ok b ↔ ∃ a, x = .ok a ∧ f a = .ok b := by
  constructor
  · intro h
    cases x with
    | error e => cases h
    | ok a => exact ⟨a, rfl, h⟩
  · rintro ⟨a, rfl, h⟩
    exact h

theorem map_eq_ok {x : Except ε α} {f : α → β} {b : β} :
    (f <$> x) = .ok b ↔ ∃ a, x = .ok a ∧ f a = b := by
  constructor
  · intro h
    cases x with
    | error e => cases h
    | ok a => exact ⟨a, rfl, Except.ok.inj h⟩
  · rintro ⟨a, rfl, rfl⟩
    rfl

theorem pure_eq_ok {a b : α} : (Pure.pure a : Except ε α) = .ok b ↔ a = b := by
  constructor
  · intro h
    exact Except.ok.inj h
  · rintro rfl
    rfl

/-- A program that gives a value. -/
def Returns (x : Except ε α) : Prop := ∃ a, x = .ok a

namespace Returns

theorem ok (a : α) : Returns (.ok a : Except ε α) := ⟨a, rfl⟩

theorem pure (a : α) : Returns (Pure.pure a : Except ε α) := ⟨a, rfl⟩

theorem bind {x : Except ε α} {f : α → Except ε β} (hx : Returns x)
    (hf : ∀ a, x = .ok a → Returns (f a)) : Returns (x >>= f) := by
  obtain ⟨a, ha⟩ := hx
  obtain ⟨b, hb⟩ := hf a ha
  refine ⟨b, ?_⟩
  rw [ha]
  exact hb

theorem map {x : Except ε α} (hx : Returns x) (f : α → β) : Returns (f <$> x) := by
  obtain ⟨a, ha⟩ := hx
  exact ⟨f a, by rw [ha]; rfl⟩

theorem ite {p : Prop} [Decidable p] {x y : Except ε α} (hx : p → Returns x)
    (hy : ¬ p → Returns y) : Returns (if p then x else y) := by
  by_cases h : p
  · rw [if_pos h]
    exact hx h
  · rw [if_neg h]
    exact hy h

theorem foldlM {f : β → α → Except ε β} (h : ∀ b a, Returns (f b a)) (l : List α) (b : β) :
    Returns (l.foldlM f b) := by
  induction l generalizing b with
  | nil => exact pure b
  | cons a l ih =>
    rw [List.foldlM_cons]
    exact (h b a).bind (fun c _ => ih c)

end Returns

/-! ### With a state -/

/-- Total correctness. -/
def Total (P : σ → Prop) (x : StateT σ (Except ε) α) (Q : α → σ → Prop) : Prop :=
  ∀ s, P s → ∃ a s', x s = .ok (a, s') ∧ Q a s'

namespace Total

variable {P I : σ → Prop} {Q : α → σ → Prop}

theorem pure {a : α} (h : ∀ s, P s → Q a s) :
    Total P (Pure.pure a : StateT σ (Except ε) α) Q := by
  intro s hs
  exact ⟨a, s, rfl, h s hs⟩

theorem bind {x : StateT σ (Except ε) β} {f : β → StateT σ (Except ε) α}
    {R : β → σ → Prop} (hx : Total P x R) (hf : ∀ b, Total (R b) (f b) Q) :
    Total P (x >>= f) Q := by
  intro s hs
  obtain ⟨b, s₁, hb, hR⟩ := hx s hs
  obtain ⟨a, s₂, ha, hQ⟩ := hf b s₁ hR
  refine ⟨a, s₂, ?_, hQ⟩
  show (x s >>= fun p => f p.1 p.2) = _
  rw [hb]
  exact ha

/-- A program without a state, and what is done with its value. -/
theorem read {x : Except ε β} {f : β → StateT σ (Except ε) α} (hx : Returns x)
    (hf : ∀ b, x = .ok b → Total P (f b) Q) : Total P (liftM x >>= f) Q := by
  obtain ⟨b, hb⟩ := hx
  intro s hs
  obtain ⟨a, s', ha, hQ⟩ := hf b hb s hs
  refine ⟨a, s', ?_, hQ⟩
  rw [hb]
  exact ha

theorem modify {g : σ → σ} {Q : Unit → σ → Prop} (h : ∀ s, P s → Q () (g s)) :
    Total P (MonadState.modifyGet (fun s => ((), g s)) : StateT σ (Except ε) Unit) Q := by
  intro s hs
  exact ⟨(), g s, rfl, h s hs⟩

theorem ite {p : Prop} [Decidable p] {x y : StateT σ (Except ε) α} (hx : p → Total P x Q)
    (hy : ¬ p → Total P y Q) : Total P (if p then x else y) Q := by
  by_cases h : p
  · rw [if_pos h]
    exact hx h
  · rw [if_neg h]
    exact hy h

/-- A loop whose rounds keep `I`. -/
theorem foldlM {f : β → α → StateT σ (Except ε) β}
    (h : ∀ b a, Total I (f b a) (fun _ => I)) (l : List α) (b : β) :
    Total I (l.foldlM f b) (fun _ => I) := by
  induction l generalizing b with
  | nil => exact pure (fun s hs => hs)
  | cons a l ih =>
    rw [List.foldlM_cons]
    exact (h b a).bind (fun c => ih c)

theorem forM {f : α → StateT σ (Except ε) PUnit} (h : ∀ a, Total I (f a) (fun _ => I))
    (l : List α) : Total I (l.forM f) (fun _ => I) := by
  induction l with
  | nil => exact pure (fun s hs => hs)
  | cons a l ih => exact (h a).bind (fun _ => ih)

end Total

end Bufi.Logic
