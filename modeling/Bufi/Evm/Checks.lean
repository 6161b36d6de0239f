import Bufi.Evm.Word
import Mathlib.Data.List.Forall2

/-!
# Calls that may revert

A function of a contract is a value of `Except ε α`: the result, or the error
it reverts with.  `require p e` is a check, `orRevert x e` gives a partial
operation the error it stands for.  The lemmas invert a successful call: every
check passed, every part succeeded, and what is left is the result.  A loop is
a fold, and `foldlM_invariant` is its rule.
-/

namespace Bufi.Evm

variable {ε α β : Type}

/-- `if (!p) revert e;` -/
def require (p : Prop) [Decidable p] (e : ε) : Except ε Unit := if p then .ok () else .error e

/-- A partial operation, with the error it reverts with. -/
def orRevert (x : Option α) (e : ε) : Except ε α := x.elim (.error e) .ok

theorem bind_eq_ok {x : Except ε α} {f : α → Except ε β} {b : β} :
    (x >>= f) = .ok b ↔ ∃ a, x = .ok a ∧ f a = .ok b := by
  cases x with
  | error e => simp [Bind.bind, Except.bind]
  | ok a => simp [Bind.bind, Except.bind]

theorem ok_bind {a : α} {f : α → Except ε β} : (Except.ok a >>= f) = f a := rfl

theorem map_eq_ok {x : Except ε α} {f : α → β} {b : β} :
    x.map f = .ok b ↔ ∃ a, x = .ok a ∧ f a = b := by
  cases x with
  | error e => simp [Except.map]
  | ok a => simp [Except.map]

theorem mapError_eq_ok {ε' : Type} {x : Except ε α} {f : ε → ε'} {a : α} :
    x.mapError f = .ok a ↔ x = .ok a := by
  cases x with
  | error e => simp [Except.mapError]
  | ok b => simp [Except.mapError]

theorem bind_eq_error {x : Except ε α} {f : α → Except ε β} {e : ε} :
    (x >>= f) = .error e ↔ x = .error e ∨ ∃ a, x = .ok a ∧ f a = .error e := by
  cases x with
  | error e' => simp [Bind.bind, Except.bind]
  | ok a => simp [Bind.bind, Except.bind]

theorem require_eq_error {p : Prop} [Decidable p] {e e' : ε} :
    require p e = .error e' ↔ ¬ p ∧ e = e' := by
  by_cases h : p
  · simp [require, h]
  · simp [require, h]

theorem orRevert_eq_error {x : Option α} {e e' : ε} :
    orRevert x e = .error e' ↔ x = none ∧ e = e' := by
  cases x with
  | none => simp [orRevert]
  | some a => simp [orRevert]

theorem pure_ne_error {a : α} {e : ε} : (pure a : Except ε α) ≠ .error e := by
  simp [pure, Except.pure]

@[simp] theorem require_eq_ok {p : Prop} [Decidable p] {e : ε} {u : Unit} :
    require p e = .ok u ↔ p := by
  by_cases h : p
  · simp [require, h]
  · simp [require, h]

theorem require_of {p : Prop} [Decidable p] (h : p) (e : ε) : require p e = .ok () :=
  if_pos h

@[simp] theorem orRevert_eq_ok {x : Option α} {e : ε} {a : α} :
    orRevert x e = .ok a ↔ x = some a := by
  cases x with
  | none => simp [orRevert]
  | some b => simp [orRevert]

theorem toOption_eq_some {x : Except ε α} {a : α} : x.toOption = some a ↔ x = .ok a := by
  cases x with
  | error e => simp [Except.toOption]
  | ok b => simp [Except.toOption]

theorem pure_eq_ok {a b : α} : (pure a : Except ε α) = .ok b ↔ b = a := by
  simp [pure, Except.pure, eq_comm]

theorem checkedAdd_eq_some {a b c : ℕ} :
    checkedAdd a b = some c ↔ a + b < 2 ^ 256 ∧ a + b = c := by
  rw [checkedAdd, Option.ite_none_right_eq_some, Option.some.injEq]

/-! ### Loops -/

/-- A loop that collects a result of every element. -/
theorem mapM_eq_ok {f : α → Except ε β} {l : List α} {r : List β} :
    l.mapM f = .ok r ↔ List.Forall₂ (fun a b => f a = .ok b) l r := by
  induction l generalizing r with
  | nil => rw [List.mapM_nil, pure_eq_ok, List.forall₂_nil_left_iff]
  | cons a l ih =>
    simp only [List.mapM_cons, bind_eq_ok, pure_eq_ok, List.forall₂_cons_left_iff, ih]
    constructor
    · rintro ⟨b, hb, bs, hbs, rfl⟩
      exact ⟨b, bs, hb, hbs, rfl⟩
    · rintro ⟨b, bs, hb, hbs, rfl⟩
      exact ⟨b, hb, bs, hbs, rfl⟩

theorem mapM_left {f : α → Except ε β} {l : List α} {r : List β} (h : l.mapM f = .ok r) {a : α}
    (ha : a ∈ l) : ∃ b ∈ r, f a = .ok b := by
  induction mapM_eq_ok.mp h with
  | nil => exact absurd ha List.not_mem_nil
  | @cons x y l r hxy hlr ih =>
    rcases List.mem_cons.mp ha with rfl | ha
    · exact ⟨y, List.mem_cons_self, hxy⟩
    · obtain ⟨b, hb, hab⟩ := ih (mapM_eq_ok.mpr hlr) ha
      exact ⟨b, List.mem_cons_of_mem y hb, hab⟩

theorem mapM_right {f : α → Except ε β} {l : List α} {r : List β} (h : l.mapM f = .ok r) {b : β}
    (hb : b ∈ r) : ∃ a ∈ l, f a = .ok b := by
  induction mapM_eq_ok.mp h with
  | nil => exact absurd hb List.not_mem_nil
  | @cons x y l r hxy hlr ih =>
    rcases List.mem_cons.mp hb with rfl | hb
    · exact ⟨x, List.mem_cons_self, hxy⟩
    · obtain ⟨a, ha, hab⟩ := ih (mapM_eq_ok.mpr hlr) hb
      exact ⟨a, List.mem_cons_of_mem x ha, hab⟩

/-- The loop succeeds when every element does. -/
theorem exists_mapM {f : α → Except ε β} {l : List α} :
    (∃ r, l.mapM f = .ok r) ↔ ∀ a ∈ l, ∃ b, f a = .ok b := by
  constructor
  · rintro ⟨r, hr⟩ a ha
    obtain ⟨b, -, hb⟩ := mapM_left hr ha
    exact ⟨b, hb⟩
  · intro h
    induction l with
    | nil => exact ⟨[], rfl⟩
    | cons a l ih =>
      obtain ⟨b, hb⟩ := h a List.mem_cons_self
      obtain ⟨r, hr⟩ := ih (fun a' ha' => h a' (List.mem_cons_of_mem a ha'))
      exact ⟨b :: r, mapM_eq_ok.mpr (.cons hb (mapM_eq_ok.mp hr))⟩

/-- A loop whose turns can only have one result. -/
theorem eq_map_of_mapM {f : α → Except ε β} {g : α → β} {l : List α} {r : List β}
    (hg : ∀ a b, f a = .ok b → b = g a) (h : l.mapM f = .ok r) : r = l.map g := by
  induction mapM_eq_ok.mp h with
  | nil => rfl
  | @cons a b l r hab hlr ih =>
    rw [List.map_cons, ← hg a b hab, ← ih (mapM_eq_ok.mpr hlr)]

/-- A loop whose turns succeed under a condition, with a known result. -/
theorem mapM_eq_map {f : α → Except ε β} {g : α → β} {P : α → Prop} {l : List α} {r : List β}
    (h : ∀ a ∈ l, ∀ b, f a = .ok b ↔ P a ∧ b = g a) :
    l.mapM f = .ok r ↔ (∀ a ∈ l, P a) ∧ r = l.map g := by
  induction l generalizing r with
  | nil => simp [pure_eq_ok]
  | cons a l ih =>
    have ih := fun {r} => ih (r := r) (fun a' ha' => h a' (List.mem_cons_of_mem a ha'))
    simp only [List.mapM_cons, bind_eq_ok, h a List.mem_cons_self, pure_eq_ok, ih,
      List.forall_mem_cons, List.map_cons]
    constructor
    · rintro ⟨_, ⟨hp, rfl⟩, _, ⟨hl, rfl⟩, rfl⟩
      exact ⟨⟨hp, hl⟩, rfl⟩
    · rintro ⟨⟨hp, hl⟩, rfl⟩
      exact ⟨_, ⟨hp, rfl⟩, _, ⟨hl, rfl⟩, rfl⟩

/-- A loop over the elements and their positions, where only the errors name the
positions. -/
theorem mapM_zipIdx_eq_ok {f : α → Option β} {e : α × ℕ → ε} {l : List α} {k : ℕ} {r : List β} :
    (l.zipIdx k).mapM (fun x => orRevert (f x.1) (e x)) = .ok r
      ↔ (∀ a ∈ l, f a ≠ none) ∧ r = l.filterMap f := by
  induction l generalizing k r with
  | nil => simp [pure_eq_ok]
  | cons a l ih =>
    simp only [List.zipIdx_cons, List.mapM_cons, bind_eq_ok, orRevert_eq_ok, pure_eq_ok, ih,
      List.forall_mem_cons]
    constructor
    · rintro ⟨b, hb, _, ⟨hl, rfl⟩, rfl⟩
      exact ⟨⟨by simp [hb], hl⟩, by rw [List.filterMap_cons_some hb]⟩
    · rintro ⟨⟨ha, hl⟩, rfl⟩
      obtain ⟨b, hb⟩ := Option.ne_none_iff_exists'.mp ha
      exact ⟨b, hb, _, ⟨hl, rfl⟩, by rw [List.filterMap_cons_some hb]⟩

/-- A loop of checks passes if every check does. -/
theorem forM_eq_ok {f : α → Except ε Unit} {l : List α} {u : Unit} :
    l.forM f = .ok u ↔ ∀ a ∈ l, f a = .ok () := by
  induction l with
  | nil => exact iff_of_true rfl (fun a ha => absurd ha List.not_mem_nil)
  | cons a l ih =>
    rw [List.forall_mem_cons, ← ih]
    exact bind_eq_ok.trans ⟨fun ⟨_, ha, hl⟩ => ⟨ha, hl⟩, fun ⟨ha, hl⟩ => ⟨(), ha, hl⟩⟩

theorem foldlM_nil_eq_ok {f : β → α → Except ε β} {b b' : β} :
    [].foldlM f b = .ok b' ↔ b' = b := pure_eq_ok

theorem foldlM_cons_eq_ok {f : β → α → Except ε β} {b b' : β} {x : α} {l : List α} :
    (x :: l).foldlM f b = .ok b' ↔ ∃ m, f b x = .ok m ∧ l.foldlM f m = .ok b' := by
  rw [List.foldlM_cons, bind_eq_ok]

/-- A loop that reverts does so in one of its turns, with what holds before it. -/
theorem foldlM_eq_error {P : β → Prop} {f : β → α → Except ε β} {b : β} {e : ε} {l : List α}
    (h : l.foldlM f b = .error e) (hb : P b)
    (hstep : ∀ x ∈ l, ∀ b b', P b → f b x = .ok b' → P b') :
    ∃ x ∈ l, ∃ b, P b ∧ f b x = .error e := by
  induction l generalizing b with
  | nil => exact absurd h pure_ne_error
  | cons x l ih =>
    rw [List.foldlM_cons, bind_eq_error] at h
    rcases h with hx | ⟨m, hm, h⟩
    · exact ⟨x, List.mem_cons_self, b, hb, hx⟩
    · obtain ⟨y, hy, c, hc, herr⟩ := ih h (hstep x List.mem_cons_self b m hb hm)
        (fun z hz => hstep z (List.mem_cons_of_mem x hz))
      exact ⟨y, List.mem_cons_of_mem x hy, c, hc, herr⟩

/-- What holds before a loop and is kept by each of its turns holds after it. -/
theorem foldlM_invariant_mem {P : β → Prop} {f : β → α → Except ε β} {b b' : β} {l : List α}
    (h : l.foldlM f b = .ok b') (hb : P b)
    (hstep : ∀ x ∈ l, ∀ b b', P b → f b x = .ok b' → P b') : P b' := by
  induction l generalizing b with
  | nil =>
    rw [foldlM_nil_eq_ok] at h
    rwa [h]
  | cons x l ih =>
    rw [foldlM_cons_eq_ok] at h
    obtain ⟨m, hm, h⟩ := h
    exact ih h (hstep x List.mem_cons_self b m hb hm)
      (fun y hy => hstep y (List.mem_cons_of_mem x hy))

/-- What holds before a loop and is kept by any turn holds after it. -/
theorem foldlM_invariant {P : β → Prop} {f : β → α → Except ε β} {b b' : β} {l : List α}
    (h : l.foldlM f b = .ok b') (hb : P b) (hstep : ∀ b x b', P b → f b x = .ok b' → P b') :
    P b' :=
  foldlM_invariant_mem h hb (fun x _ b b' => hstep b x b')

end Bufi.Evm
