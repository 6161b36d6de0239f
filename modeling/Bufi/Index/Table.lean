import Mathlib.Algebra.BigOperators.Group.Finset.Basic
import Mathlib.Algebra.BigOperators.Group.Finset.Piecewise
import Mathlib.Algebra.BigOperators.Ring.Finset
import Mathlib.Tactic.Abel

/-!
# Tables and totals

A table of an index holds one row for each key.  A handler loads a copy of a row, changes
it and saves the whole copy; `modify` is the three in one.  The keys that have ever been
used are kept, so that a table can be added up.

`total t f` adds a value of every row.  Saving a row changes it by the difference between
the new row and the old one (`total_save`), which is how a counter that another table
keeps is compared with the rows it counts: `Tally` says that the counter of every group is
the total over the rows of the group, and the rules at the end say what a step has to do
to keep it.
-/

namespace Bufi.Index

/-- A table; `keys` are the keys that have been used. -/
structure Table (κ ν : Type) where
  load : κ → Option ν
  keys : Finset κ
  mem_keys : ∀ {k v}, load k = some v → k ∈ keys

namespace Table

variable {κ ν : Type}

def empty : Table κ ν where
  load _ := none
  keys := ∅
  mem_keys h := nomatch h

@[simp] theorem load_empty (k : κ) : (empty : Table κ ν).load k = none := rfl

variable [DecidableEq κ]

def save (t : Table κ ν) (k : κ) (v : ν) : Table κ ν where
  load := Function.update t.load k (some v)
  keys := insert k t.keys
  mem_keys := by
    intro k' v' h
    by_cases hk : k' = k
    · exact Finset.mem_insert.mpr (.inl hk)
    · rw [Function.update_of_ne hk] at h
      exact Finset.mem_insert_of_mem (t.mem_keys h)

def remove (t : Table κ ν) (k : κ) : Table κ ν where
  load := Function.update t.load k none
  keys := t.keys
  mem_keys := by
    intro k' v' h
    by_cases hk : k' = k
    · rw [hk, Function.update_self] at h
      cases h
    · rw [Function.update_of_ne hk] at h
      exact t.mem_keys h

/-- Load a row, change it and save it. -/
def modify (t : Table κ ν) (k : κ) (f : ν → ν) : Table κ ν :=
  match t.load k with
  | some v => t.save k (f v)
  | none => t

/-- The row that is linked, if there is one. -/
def modifyAt (t : Table κ ν) (linked : Option κ) (f : ν → ν) : Table κ ν :=
  match linked with
  | none => t
  | some k => t.modify k f

variable {t t' : Table κ ν} {k k' : κ} {v : ν}

@[simp] theorem load_save_self : (t.save k v).load k = some v := Function.update_self _ _ _

theorem load_save_of_ne (h : k' ≠ k) : (t.save k v).load k' = t.load k' :=
  Function.update_of_ne h _ _

theorem load_save : (t.save k v).load k' = if k' = k then some v else t.load k' :=
  Function.update_apply _ _ _ _

@[simp] theorem load_remove_self : (t.remove k).load k = none := Function.update_self _ _ _

theorem load_remove_of_ne (h : k' ≠ k) : (t.remove k).load k' = t.load k' :=
  Function.update_of_ne h _ _

theorem load_modify (f : ν → ν) :
    (t.modify k f).load k' = if k' = k then (t.load k').map f else t.load k' := by
  unfold modify
  cases h : t.load k with
  | none =>
    by_cases hk : k' = k
    · rw [if_pos hk, hk, h]
      rfl
    · rw [if_neg hk]
  | some v =>
    simp only [load_save]
    by_cases hk : k' = k
    · rw [if_pos hk, if_pos hk, hk, h]
      rfl
    · rw [if_neg hk, if_neg hk]

theorem isSome_load_modify (f : ν → ν) :
    ((t.modify k f).load k').isSome = (t.load k').isSome := by
  rw [load_modify]
  by_cases hk : k' = k
  · rw [if_pos hk, Option.isSome_map]
  · rw [if_neg hk]

theorem isSome_load_modifyAt (linked : Option κ) (f : ν → ν) :
    ((t.modifyAt linked f).load k').isSome = (t.load k').isSome := by
  cases linked with
  | none => rfl
  | some k => exact isSome_load_modify f

theorem map_load_modifyAt {β : Type} {g : ν → β} {f : ν → ν} (h : ∀ v, g (f v) = g v)
    (linked : Option κ) : ((t.modifyAt linked f).load k').map g = (t.load k').map g := by
  cases linked with
  | none => rfl
  | some k =>
    show ((t.modify k f).load k').map g = _
    rw [load_modify]
    by_cases hk : k' = k
    · rw [if_pos hk, Option.map_map]
      exact congrArg (fun g => (t.load k').map g) (funext h)
    · rw [if_neg hk]

theorem isSome_load_save (h : (t.load k').isSome) : ((t.save k v).load k').isSome := by
  rw [load_save]
  by_cases hk : k' = k
  · rw [if_pos hk]
    rfl
  · rw [if_neg hk]
    exact h

/-- A function of the rows that no row changes. -/
theorem map_load_modify {β : Type} {g : ν → β} {f : ν → ν} (h : ∀ v, g (f v) = g v) :
    ((t.modify k f).load k').map g = (t.load k').map g := by
  rw [load_modify]
  by_cases hk : k' = k
  · rw [if_pos hk, Option.map_map]
    exact congrArg (fun g => (t.load k').map g) (funext h)
  · rw [if_neg hk]

omit [DecidableEq κ] in
/-- What is said of every row can be checked at the keys. -/
theorem forall_mem_keys {p : κ → ν → Prop} :
    (∀ k ∈ t.keys, ∀ v ∈ t.load k, p k v) ↔ ∀ k v, t.load k = some v → p k v := by
  constructor
  · exact fun h k v hload => h k (t.mem_keys hload) v hload
  · exact fun h k _ v hload => h k v hload

instance decidableForallLoad {p : κ → ν → Prop} [∀ k v, Decidable (p k v)] :
    Decidable (∀ k v, t.load k = some v → p k v) :=
  decidable_of_iff _ forall_mem_keys

/-! ### Totals -/

section Totals

variable {M : Type} [AddCommGroup M] {f g : κ → ν → M}

/-- The value of a row, zero where there is none. -/
def value (t : Table κ ν) (f : κ → ν → M) (k : κ) : M := (t.load k).elim 0 (f k)

/-- The values of all rows. -/
def total (t : Table κ ν) (f : κ → ν → M) : M := ∑ k ∈ t.keys, t.value f k

omit [DecidableEq κ] in
theorem value_of_load (h : t.load k = some v) : t.value f k = f k v := by
  rw [value, h]
  rfl

omit [DecidableEq κ] in
theorem value_of_none (h : t.load k = none) : t.value f k = 0 := by
  rw [value, h]
  rfl

theorem value_save : (t.save k v).value f k' = if k' = k then f k v else t.value f k' := by
  rw [value, load_save]
  by_cases hk : k' = k
  · rw [if_pos hk, if_pos hk, hk]
    rfl
  · rw [if_neg hk, if_neg hk]
    rfl

omit [DecidableEq κ] in
/-- More keys add nothing. -/
theorem total_eq_sum {K : Finset κ} (h : t.keys ⊆ K) : t.total f = ∑ k ∈ K, t.value f k := by
  refine Finset.sum_subset h ?_
  intro k _ hk
  refine value_of_none ?_
  cases hload : t.load k with
  | none => rfl
  | some v => exact absurd (t.mem_keys hload) hk

/-- Tables with the same values have the same total. -/
theorem total_congr {ν' : Type} {t' : Table κ ν'} {f' : κ → ν' → M}
    (h : ∀ k, t.value f k = t'.value f' k) : t.total f = t'.total f' := by
  rw [t.total_eq_sum (K := t.keys ∪ t'.keys) Finset.subset_union_left,
    t'.total_eq_sum (K := t.keys ∪ t'.keys) Finset.subset_union_right]
  exact Finset.sum_congr rfl (fun k _ => h k)

/-- **A saved row** replaces the value of the old one. -/
theorem total_save (t : Table κ ν) (f : κ → ν → M) (k : κ) (v : ν) :
    (t.save k v).total f = t.total f + (f k v - t.value f k) := by
  have hk : k ∈ insert k t.keys := Finset.mem_insert_self k t.keys
  rw [t.total_eq_sum (Finset.subset_insert k t.keys), total]
  change ∑ k' ∈ insert k t.keys, (t.save k v).value f k' = _
  rw [← Finset.add_sum_erase _ _ hk, ← Finset.add_sum_erase _ _ hk, value_save, if_pos rfl]
  have hrest : ∑ k' ∈ (insert k t.keys).erase k, (t.save k v).value f k' =
      ∑ k' ∈ (insert k t.keys).erase k, t.value f k' := by
    refine Finset.sum_congr rfl ?_
    intro k' hk'
    rw [value_save, if_neg (Finset.ne_of_mem_erase hk')]
  rw [hrest]
  abel

theorem total_save_of_eq (h : f k v = t.value f k) : (t.save k v).total f = t.total f := by
  rw [total_save, h, sub_self, add_zero]

omit [DecidableEq κ] in
@[simp] theorem total_empty : (empty : Table κ ν).total f = 0 := rfl

/-- The value of a changed row. -/
theorem value_modify {get : ν → M} {φ : ν → ν} {δ : M} (h : ∀ v, get (φ v) = get v + δ) :
    (t.modify k φ).value (fun _ => get) k' =
      t.value (fun _ => get) k' + if k' = k ∧ (t.load k).isSome then δ else 0 := by
  rw [value, load_modify, value]
  by_cases hk : k' = k
  · rw [if_pos hk, hk]
    cases hload : t.load k with
    | none => simp
    | some v => simp [h]
  · rw [if_neg hk, if_neg (fun hand => hk hand.1), add_zero]

theorem value_modifyAt {get : ν → M} {φ : ν → ν} {δ : M} (h : ∀ v, get (φ v) = get v + δ)
    (linked : Option κ) :
    (t.modifyAt linked φ).value (fun _ => get) k' =
      t.value (fun _ => get) k' + if linked = some k' ∧ (t.load k').isSome then δ else 0 := by
  cases linked with
  | none => simp [modifyAt]
  | some k =>
    rw [modifyAt, value_modify h]
    by_cases hk : k' = k
    · rw [hk]
      simp
    · rw [if_neg (fun hand => hk hand.1), if_neg (fun hand => hk (Option.some.inj hand.1).symm)]

theorem value_modifyAt_same {get : ν → M} {φ : ν → ν} (h : ∀ v, get (φ v) = get v)
    (linked : Option κ) :
    (t.modifyAt linked φ).value (fun _ => get) k' = t.value (fun _ => get) k' := by
  rw [value_modifyAt (δ := 0) (fun v => by rw [h, add_zero]), ite_self, add_zero]

theorem value_modify_same {get : ν → M} {φ : ν → ν} (h : ∀ v, get (φ v) = get v) :
    (t.modify k φ).value (fun _ => get) k' = t.value (fun _ => get) k' := by
  rw [value_modify (δ := 0) (fun v => by rw [h, add_zero]), ite_self, add_zero]

/-- The value of a row that is saved for the first time or again. -/
theorem value_save_getD {get : ν → M} {φ : ν → ν} {d : ν} {δ : M} (hd : get d = 0)
    (h : ∀ v, get (φ v) = get v + δ) :
    (t.save k (φ ((t.load k).getD d))).value (fun _ => get) k' =
      t.value (fun _ => get) k' + if k' = k then δ else 0 := by
  rw [value_save]
  by_cases hk : k' = k
  · rw [if_pos hk, if_pos hk, h, hk]
    cases hload : t.load k with
    | none => rw [value_of_none hload, Option.getD_none, hd]
    | some v => rw [value_of_load hload, Option.getD_some]
  · rw [if_neg hk, if_neg hk, add_zero]

/-- The value of a row that is known and saved again. -/
theorem value_save_add {get : ν → M} {δ : M} (hload : t.load k = some v) {v' : ν}
    (h : get v' = get v + δ) :
    (t.save k v').value (fun _ => get) k' =
      t.value (fun _ => get) k' + if k' = k then δ else 0 := by
  rw [value_save]
  by_cases hk : k' = k
  · rw [if_pos hk, if_pos hk, hk, value_of_load hload, h]
  · rw [if_neg hk, if_neg hk, add_zero]

theorem value_save_same {get : ν → M} (hload : t.load k = some v) {v' : ν} (h : get v' = get v) :
    (t.save k v').value (fun _ => get) k' = t.value (fun _ => get) k' := by
  rw [value_save]
  by_cases hk : k' = k
  · rw [if_pos hk, hk, value_of_load hload, h]
  · rw [if_neg hk]

end Totals

/-! ### Counting -/

/-- The number of the rows with a property. -/
def count (t : Table κ ν) (p : κ → ν → Bool) : ℤ :=
  (t.keys.filter (fun k => (t.load k).any (p k) = true)).card

/-- The sum of a value over the rows with a property. -/
def sumOver {M : Type} [AddCommGroup M] (t : Table κ ν) (p : κ → ν → Bool) (f : κ → ν → M) : M :=
  t.total (fun k v => if p k v then f k v else 0)

omit [DecidableEq κ] in
theorem count_eq_sumOver (p : κ → ν → Bool) : t.count p = t.sumOver p (fun _ _ => 1) := by
  rw [count, Finset.card_filter, sumOver, total, Nat.cast_sum]
  refine Finset.sum_congr rfl ?_
  intro k _
  cases hload : t.load k with
  | none => simp [value, hload]
  | some v => simp [value, hload]

omit [DecidableEq κ] in
theorem sumOver_congr {M : Type} [AddCommGroup M] {p q : κ → ν → Bool} {f : κ → ν → M}
    (h : ∀ k v, t.load k = some v → p k v = q k v) : t.sumOver p f = t.sumOver q f := by
  refine Finset.sum_congr rfl ?_
  intro k _
  cases hload : t.load k with
  | none => rw [value_of_none hload, value_of_none hload]
  | some v => rw [value_of_load hload, value_of_load hload, h k v hload]

omit [DecidableEq κ] in
theorem count_congr {p q : κ → ν → Bool} (h : ∀ k v, t.load k = some v → p k v = q k v) :
    t.count p = t.count q := by
  rw [count_eq_sumOver, count_eq_sumOver, sumOver_congr h]

end Table

/-! ### Tallies -/

section Tally

variable {γ χ κ ν M : Type} [AddCommGroup M] [DecidableEq γ]

/-- What a row adds to the counter of a group. -/
def share (key : κ → ν → Option γ) (f : κ → ν → M) (g : γ) (k : κ) (v : ν) : M :=
  if key k v = some g then f k v else 0

/-- The counter of every group is the total over the rows of the group; a group that is
not there has the counter zero. -/
def Tally (counters : Table γ χ) (get : χ → M) (rows : Table κ ν) (key : κ → ν → Option γ)
    (f : κ → ν → M) : Prop :=
  ∀ g, counters.value (fun _ => get) g = rows.total (share key f g)

variable {counters counters' : Table γ χ} {get : χ → M} {rows : Table κ ν}
  {key : κ → ν → Option γ} {f : κ → ν → M}

theorem tally_empty :
    Tally (Table.empty : Table γ χ) get (Table.empty : Table κ ν) key f := fun _ => rfl

/-- The counters may change where none of their values does. -/
theorem Tally.of_value_eq (h : Tally counters get rows key f)
    (hc : ∀ g, counters'.value (fun _ => get) g = counters.value (fun _ => get) g) :
    Tally counters' get rows key f := by
  intro g
  rw [hc g]
  exact h g

/-- The total of the rows of a group. -/
theorem total_share (g : γ) :
    rows.total (share key f g) = rows.sumOver (fun k v => decide (key k v = some g)) f := by
  refine congrArg rows.total (funext fun k => funext fun v => ?_)
  rw [share]
  by_cases hk : key k v = some g
  · rw [if_pos hk, if_pos (decide_eq_true hk)]
  · rw [if_neg hk, if_neg (by simpa using hk)]

/-- A counter of ones is a number of rows. -/
theorem Tally.eq_count {count : χ → ℤ} (h : Tally counters count rows key (fun _ _ => 1)) {g : γ}
    {x : χ} (hx : counters.load g = some x) :
    count x = rows.count (fun k v => decide (key k v = some g)) := by
  have hg := h g
  rw [Table.value_of_load hx] at hg
  rw [hg, Table.count_eq_sumOver, total_share]

/-- A counter of values is a sum over rows. -/
theorem Tally.eq_sumOver (h : Tally counters get rows key f) {g : γ} {x : χ}
    (hx : counters.load g = some x) :
    get x = rows.sumOver (fun k v => decide (key k v = some g)) f := by
  have hg := h g
  rw [Table.value_of_load hx] at hg
  rw [hg, total_share]

/-- The values of rows that have no group do not matter. -/
theorem Tally.of_values {f' : κ → ν → M} (h : Tally counters get rows key f)
    (hf : ∀ k v, rows.load k = some v → key k v ≠ none → f' k v = f k v) :
    Tally counters get rows key f' := by
  intro g
  rw [h g]
  refine Finset.sum_congr rfl ?_
  intro k _
  cases hload : rows.load k with
  | none => rw [Table.value_of_none hload, Table.value_of_none hload]
  | some v =>
    rw [Table.value_of_load hload, Table.value_of_load hload, share, share]
    by_cases hk : key k v = some g
    · rw [if_pos hk, if_pos hk, hf k v hload (by rw [hk]; exact Option.some_ne_none g)]
    · rw [if_neg hk, if_neg hk]

variable [DecidableEq κ] {k : κ} {v : ν}

theorem Tally.of_load_eq {rows' : Table κ ν} (h : Tally counters get rows key f)
    (hrows : rows'.load = rows.load) : Tally counters get rows' key f := by
  intro g
  rw [h g]
  refine Table.total_congr ?_
  intro k
  rw [Table.value, Table.value, hrows]

/-- **A row is saved**, and the counters change by what it adds more than the old one. -/
theorem Tally.save (h : Tally counters get rows key f)
    (hc : ∀ g, counters'.value (fun _ => get) g =
      counters.value (fun _ => get) g + (share key f g k v - rows.value (share key f g) k)) :
    Tally counters' get (rows.save k v) key f := by
  intro g
  rw [hc g, Table.total_save, h g]

/-- A row is saved that adds what the old one did. -/
theorem Tally.save_same (h : Tally counters get rows key f) {old : ν} (hold : rows.load k = some old)
    (hkey : key k v = key k old) (hf : f k v = f k old) :
    Tally counters get (rows.save k v) key f := by
  refine h.save ?_
  intro g
  rw [Table.value_of_load hold, share, share, hkey, hf, sub_self, add_zero]

/-- A row is changed that adds what it did. -/
theorem Tally.modify_same (h : Tally counters get rows key f) {φ : ν → ν}
    (hkey : ∀ v, key k (φ v) = key k v) (hf : ∀ v, f k (φ v) = f k v) :
    Tally counters get (rows.modify k φ) key f := by
  unfold Table.modify
  cases hload : rows.load k with
  | none => exact h
  | some v => exact h.save_same hload (hkey v) (hf v)

/-- A new row that adds nothing. -/
theorem Tally.save_none (h : Tally counters get rows key f) (hnew : rows.load k = none)
    (hkey : key k v = none) : Tally counters get (rows.save k v) key f := by
  refine h.save ?_
  intro g
  rw [Table.value_of_none hnew, share, hkey, if_neg (fun heq => nomatch heq), sub_self, add_zero]

end Tally

/-! ### Logs -/

section Log

variable {ε γ M : Type} [AddCommMonoid M] [DecidableEq γ] {key : ε → γ} {f : ε → M}

/-- The total of the entries of a group, in a list to which entries are appended. -/
def logTotal (key : ε → γ) (f : ε → M) (log : List ε) (g : γ) : M :=
  ((log.filter (fun x => decide (key x = g))).map f).sum

theorem logTotal_concat (log : List ε) (x : ε) (g : γ) :
    logTotal key f (log ++ [x]) g = logTotal key f log g + if key x = g then f x else 0 := by
  rw [logTotal, List.filter_append, List.map_append, List.sum_append]
  refine congrArg (logTotal key f log g + ·) ?_
  rw [List.filter_singleton]
  by_cases hx : key x = g
  · rw [if_pos hx, decide_eq_true hx]
    exact add_zero _
  · rw [if_neg hx, decide_eq_false hx]
    rfl

/-- The groups may be read from elsewhere, as long as they are the same. -/
theorem logTotal_congr {key' : ε → γ} {log : List ε} (h : ∀ x ∈ log, key' x = key x) (g : γ) :
    logTotal key' f log g = logTotal key f log g := by
  have hfilter : log.filter (fun x => decide (key' x = g)) =
      log.filter (fun x => decide (key x = g)) :=
    List.filter_congr (fun x hx => by rw [h x hx])
  rw [logTotal, hfilter, logTotal]

end Log

end Bufi.Index
