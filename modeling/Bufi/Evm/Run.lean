import Mathlib.Data.List.Induction

/-!
# Runs of a state machine

A contract is a step function `step : σ → α → Option σ`; `none` is a call that
reverts, which leaves no trace.  `Run step s₀ h s` says that the calls `h`,
each with the state before and after it, lead from `s₀` to `s`.  The calls are
appended at the end, so that an induction on a run adds the latest call last.

A call that reverts is undone: `attempts` are the calls of a sequence that went
through, and they are a run.

A contract may be one part of a larger system.  `view` is what a run of the
system looks like from a part of its state, and `Run.view` says that it is a run
of the part when every step of the system is one of the part or leaves it alone.

`Run.invariant` is the rule every safety proof uses: what the initial state
has and every step keeps, every state of a run has (`Run.invariant_pre`, at the
calls themselves).  A run can be cut at a call: `Run.after` is what follows it,
and `Run.persists` uses that for what no later call undoes.
-/

namespace Bufi.Evm

variable {σ α : Type}

/-- A call that succeeded, with the states around it. -/
structure Call (σ α : Type) where
  pre : σ
  act : α
  post : σ

/-- `h` leads from `s₀` to `s`. -/
inductive Run (step : σ → α → Option σ) (s₀ : σ) : List (Call σ α) → σ → Prop
  | nil : Run step s₀ [] s₀
  | snoc {h : List (Call σ α)} {s s' : σ} {a : α} : Run step s₀ h s → step s a = some s' →
      Run step s₀ (h ++ [⟨s, a, s'⟩]) s'

/-- The calls that succeed when every one of a sequence is tried. -/
def attempts (step : σ → α → Option σ) (s : σ) : List α → List (Call σ α)
  | [] => []
  | a :: rest =>
    match step s a with
    | none => attempts step s rest
    | some s' => ⟨s, a, s'⟩ :: attempts step s' rest

/-- The state after every call of a sequence has been tried. -/
def afterAttempts (step : σ → α → Option σ) (s : σ) : List α → σ
  | [] => s
  | a :: rest => afterAttempts step ((step s a).getD s) rest

/-- The calls of a history that concern a part of the state, and that part. -/
def view {τ β : Type} (act : α → Option β) (part : σ → τ) (h : List (Call σ α)) :
    List (Call τ β) :=
  h.filterMap (fun c => (act c.act).map (fun b => ⟨part c.pre, b, part c.post⟩))

theorem mem_view {τ β : Type} {act : α → Option β} {part : σ → τ} {h : List (Call σ α)}
    {q : Call τ β} (hq : q ∈ view act part h) :
    ∃ c ∈ h, act c.act = some q.act ∧ q.pre = part c.pre ∧ q.post = part c.post := by
  obtain ⟨c, hc, hmap⟩ := List.mem_filterMap.mp hq
  obtain ⟨b, hb, rfl⟩ := Option.map_eq_some_iff.mp hmap
  exact ⟨c, hc, hb, rfl, rfl⟩

theorem afterAttempts_concat (step : σ → α → Option σ) (s : σ) (l : List α) (a : α) :
    afterAttempts step s (l ++ [a]) =
      (step (afterAttempts step s l) a).getD (afterAttempts step s l) := by
  induction l generalizing s with
  | nil => rfl
  | cons b l ih => exact ih ((step s b).getD s)

namespace Run

variable {step : σ → α → Option σ} {s₀ s : σ} {h : List (Call σ α)}

/-- **The invariant rule.** -/
theorem invariant {P : σ → Prop} (hr : Run step s₀ h s) (hinit : P s₀)
    (hstep : ∀ s a s', P s → step s a = some s' → P s') : P s := by
  induction hr with
  | nil => exact hinit
  | snoc _ hs ih => exact hstep _ _ _ ih hs

/-- The invariant rule, for calls that meet a condition. -/
theorem invariant_of {P : σ → Prop} {G : σ → α → Prop} (hr : Run step s₀ h s)
    (hg : ∀ c ∈ h, G c.pre c.act) (hinit : P s₀)
    (hstep : ∀ s a s', P s → G s a → step s a = some s' → P s') : P s := by
  induction hr with
  | nil => exact hinit
  | @snoc h s s' a _ hs ih =>
    have hpre := ih (fun c hc => hg c (List.mem_append_left _ hc))
    exact hstep _ _ _ hpre (hg _ (List.mem_append_right h List.mem_cons_self)) hs

/-- **A run of a system is a run of each part that its steps respect.** -/
theorem view {τ β : Type} {act : α → Option β} {part : σ → τ} {step' : τ → β → Option τ}
    (hr : Run step s₀ h s)
    (hact : ∀ s a s' b, step s a = some s' → act a = some b → step' (part s) b = some (part s'))
    (hidle : ∀ s a s', step s a = some s' → act a = none → part s' = part s) :
    Run step' (part s₀) (view act part h) (part s) := by
  induction hr with
  | nil => exact .nil
  | @snoc h s s' a _ hs ih =>
    rw [Evm.view, List.filterMap_append]
    cases hb : act a with
    | none =>
      rw [hidle s a s' hs hb]
      simpa [hb, Evm.view] using ih
    | some b =>
      have hlast := hact s a s' b hs hb
      simpa [hb, Evm.view] using ih.snoc hlast

/-- Every call of a run starts in a state of that run. -/
theorem of_getElem {i : ℕ} {c : Call σ α} (hr : Run step s₀ h s) (hi : h[i]? = some c) :
    Run step s₀ (h.take i) c.pre ∧ step c.pre c.act = some c.post := by
  induction hr with
  | nil => simp at hi
  | @snoc h s s' a hr hs ih =>
    rcases Nat.lt_trichotomy i h.length with hlt | heq | hgt
    · rw [List.getElem?_append_left hlt] at hi
      rw [List.take_append_of_le_length (Nat.le_of_lt hlt)]
      exact ih hi
    · subst heq
      rw [List.getElem?_concat_length] at hi
      obtain rfl := Option.some.inj hi
      rw [List.take_left]
      exact ⟨hr, hs⟩
    · rw [List.getElem?_eq_none (by simp; omega)] at hi
      exact absurd hi (by simp)

/-- The invariant rule at the calls of a run. -/
theorem invariant_pre {P : σ → Prop} {i : ℕ} {c : Call σ α} (hr : Run step s₀ h s)
    (hi : h[i]? = some c) (hinit : P s₀)
    (hstep : ∀ s a s', P s → step s a = some s' → P s') : P c.pre :=
  (hr.of_getElem hi).1.invariant hinit hstep

/-- What follows a call of a run is a run. -/
theorem after {i : ℕ} {c : Call σ α} (hr : Run step s₀ h s) (hi : h[i]? = some c) :
    ∃ h', Run step c.post h' s := by
  induction hr with
  | nil => simp at hi
  | @snoc h s s' a hr hs ih =>
    rcases Nat.lt_trichotomy i h.length with hlt | heq | hgt
    · rw [List.getElem?_append_left hlt] at hi
      obtain ⟨h', hr'⟩ := ih hi
      exact ⟨_, hr'.snoc hs⟩
    · subst heq
      rw [List.getElem?_concat_length] at hi
      obtain rfl := Option.some.inj hi
      exact ⟨_, .nil⟩
    · rw [List.getElem?_eq_none (by simp; omega)] at hi
      exact absurd hi (by simp)

/-- The calls between two calls of a run. -/
theorem between {i j : ℕ} {c d : Call σ α} (hr : Run step s₀ h s) (hi : h[i]? = some c)
    (hj : h[j]? = some d) (hij : i < j) : ∃ h', Run step c.post h' d.pre := by
  refine (hr.of_getElem hj).1.after (i := i) ?_
  rw [List.getElem?_take_of_lt hij]
  exact hi

/-- **What a call establishes and no call undoes holds at every later call.** -/
theorem persists {P : σ → Prop} {i j : ℕ} {c d : Call σ α} (hr : Run step s₀ h s)
    (hi : h[i]? = some c) (hj : h[j]? = some d) (hij : i < j) (hp : P c.post)
    (hstep : ∀ s a s', P s → step s a = some s' → P s') : P d.pre := by
  obtain ⟨h', hr'⟩ := hr.between hi hj hij
  exact hr'.invariant hp hstep

/-- Calls that succeed one after another are a run. -/
theorem of_foldlM {l : List α} (hl : l.foldlM step s₀ = some s) :
    ∃ h, Run step s₀ h s ∧ h.map Call.act = l := by
  induction l using List.reverseRecOn generalizing s with
  | nil =>
    obtain rfl := Option.some.inj hl
    exact ⟨[], .nil, rfl⟩
  | append_singleton l a ih =>
    rw [List.foldlM_append, Option.bind_eq_bind, Option.bind_eq_some_iff] at hl
    obtain ⟨t, ht, hlast⟩ := hl
    obtain ⟨h, hrun, hacts⟩ := ih ht
    have hstep : step t a = some s := by simpa using hlast
    refine ⟨_, hrun.snoc hstep, ?_⟩
    rw [List.map_append, hacts]
    rfl

theorem cons {a : α} {s' : σ} (hs : step s₀ a = some s) (hr : Run step s h s') :
    Run step s₀ (⟨s₀, a, s⟩ :: h) s' := by
  induction hr with
  | nil => exact Run.nil.snoc hs
  | snoc _ hlast ih => exact ih.snoc hlast

/-- What is left of a sequence of attempts is a run. -/
theorem of_attempts (step : σ → α → Option σ) (s₀ : σ) (l : List α) :
    Run step s₀ (attempts step s₀ l) (afterAttempts step s₀ l) := by
  induction l generalizing s₀ with
  | nil => exact .nil
  | cons a l ih =>
    rw [attempts, afterAttempts]
    cases ha : step s₀ a with
    | none => exact ih s₀
    | some t => exact cons ha (ih t)

/-- Every attempt that is left went through. -/
theorem step_of_attempts {s₀ : σ} {l : List α} {c : Call σ α} (hc : c ∈ attempts step s₀ l) :
    step c.pre c.act = some c.post := by
  obtain ⟨i, hi⟩ := List.mem_iff_getElem?.mp hc
  exact ((of_attempts step s₀ l).of_getElem hi).2

theorem attempts_sublist (step : σ → α → Option σ) (s₀ : σ) (l : List α) :
    ((attempts step s₀ l).map Call.act).Sublist l := by
  induction l generalizing s₀ with
  | nil => exact .refl _
  | cons a l ih =>
    rw [attempts]
    cases step s₀ a with
    | none => exact (ih s₀).cons a
    | some t => exact (ih t).cons_cons a

end Run

end Bufi.Evm
