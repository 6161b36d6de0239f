import Mathlib.Data.List.Induction
import Mathlib.Data.List.Nodup

/-!
# Maps and sets of JavaScript

A `Map` is the list of its entries in the order in which the keys were first
set.  `get` is `List.lookup`.  The elements of a `Set` come in the order in which
they were first added; `[...new Set(l)]` is `l.eraseDups`.
-/

namespace Bufi.Js

variable {κ ν : Type} [DecidableEq κ]

/-- `map.set(key, value)`; a key that is there keeps its place. -/
def mapSet (m : List (κ × ν)) (k : κ) (v : ν) : List (κ × ν) :=
  if k ∈ m.map Prod.fst then m.map (fun e => if e.1 = k then (k, v) else e) else m ++ [(k, v)]

theorem mapSet_of_not_mem {m : List (κ × ν)} {k : κ} (h : k ∉ m.map Prod.fst) (v : ν) :
    mapSet m k v = m ++ [(k, v)] := if_neg h

theorem lookup_of_mem {m : List (κ × ν)} (hm : (m.map Prod.fst).Nodup) {k : κ} {v : ν}
    (h : (k, v) ∈ m) : m.lookup k = some v := by
  induction m with
  | nil => exact absurd h List.not_mem_nil
  | cons e m ih =>
    obtain ⟨k', v'⟩ := e
    rw [List.map_cons, List.nodup_cons] at hm
    rw [List.lookup_cons]
    rcases List.mem_cons.mp h with heq | hmem
    · obtain ⟨rfl, rfl⟩ := Prod.mk.inj heq
      simp
    · have hne : k ≠ k' := by
        rintro rfl
        exact hm.1 (List.mem_map.mpr ⟨_, hmem, rfl⟩)
      rw [beq_false_of_ne hne]
      exact ih hm.2 hmem

theorem mem_of_lookup {m : List (κ × ν)} {k : κ} {v : ν} (h : m.lookup k = some v) :
    (k, v) ∈ m := by
  induction m with
  | nil => cases h
  | cons e m ih =>
    obtain ⟨k', v'⟩ := e
    rw [List.lookup_cons] at h
    by_cases hk : k = k'
    · subst hk
      rw [beq_self_eq_true] at h
      rw [Option.some.inj h]
      exact List.mem_cons_self
    · rw [beq_false_of_ne hk] at h
      exact List.mem_cons_of_mem _ (ih h)

theorem map_fst_mapSet (m : List (κ × ν)) (k : κ) (v : ν) :
    (mapSet m k v).map Prod.fst
      = if k ∈ m.map Prod.fst then m.map Prod.fst else m.map Prod.fst ++ [k] := by
  rw [mapSet]
  split_ifs with hk
  · rw [List.map_map]
    refine List.map_congr_left (fun e _ => ?_)
    rw [Function.comp_apply]
    split_ifs with he
    · exact he.symm
    · rfl
  · simp

theorem nodup_mapSet {m : List (κ × ν)} (hm : (m.map Prod.fst).Nodup) (k : κ) (v : ν) :
    ((mapSet m k v).map Prod.fst).Nodup := by
  rw [map_fst_mapSet]
  split_ifs with hk
  · exact hm
  · exact List.nodup_append.mpr ⟨hm, List.nodup_singleton k, fun a ha b hb => by
      rintro rfl
      exact hk (List.mem_singleton.mp hb ▸ ha)⟩

theorem lookup_of_not_mem {m : List (κ × ν)} {k : κ} (h : k ∉ m.map Prod.fst) :
    m.lookup k = none := by
  refine List.lookup_eq_none_iff.mpr (fun e he => bne_iff_ne.mpr ?_)
  rintro rfl
  exact h (List.mem_map_of_mem he)

/-- **A map has what was last set.** -/
theorem lookup_mapSet (m : List (κ × ν)) (k k' : κ) (v : ν) :
    (mapSet m k v).lookup k' = if k' = k then some v else m.lookup k' := by
  rw [mapSet]
  split_ifs with hk h
  · subst h
    induction m with
    | nil => exact absurd hk List.not_mem_nil
    | cons e m ih =>
      rw [List.map_cons, List.lookup_cons]
      by_cases he : e.1 = k'
      · simp [he]
      · rw [List.map_cons, List.mem_cons] at hk
        rw [if_neg he, beq_false_of_ne (Ne.symm he)]
        exact ih (hk.resolve_left (Ne.symm he))
  · clear hk
    induction m with
    | nil => rfl
    | cons e m ih =>
      rw [List.map_cons, List.lookup_cons, List.lookup_cons, ih]
      by_cases he : e.1 = k
      · subst he
        rw [if_pos rfl, beq_false_of_ne h]
      · rw [if_neg he]
  · rename_i h
    subst h
    rw [List.lookup_append, lookup_of_not_mem hk, List.lookup_cons_self, Option.none_or]
  · rename_i h
    rw [List.lookup_append, List.lookup_cons, beq_false_of_ne h, List.lookup_nil, Option.or_none]

theorem nodup_eraseDups : ∀ l : List κ, l.eraseDups.Nodup
  | [] => List.nodup_nil
  | a :: l => by
    rw [List.eraseDups_cons, List.nodup_cons, List.mem_eraseDups]
    refine ⟨?_, nodup_eraseDups _⟩
    simp
termination_by l => l.length
decreasing_by exact Nat.lt_succ_of_le (List.length_filter_le _ _)

theorem eraseDups_of_nodup {l : List κ} (h : l.Nodup) : l.eraseDups = l := by
  induction l with
  | nil => rfl
  | cons a l ih =>
    obtain ⟨ha, hl⟩ := List.nodup_cons.mp h
    have hfilter : l.filter (fun b => !b == a) = l := by
      refine List.filter_eq_self.mpr (fun b hb => ?_)
      have hne : b ≠ a := fun heq => ha (heq ▸ hb)
      rw [beq_false_of_ne hne]
      rfl
    rw [List.eraseDups_cons, hfilter, ih hl]

/-! ### The last of a kind -/

section

variable {α : Type} {p : α → Prop} [DecidablePred p] {l : List α}

variable (p l) in
/-- The last element with a property: what is left of writes to one place. -/
def lastWith : Option α := (l.filter (fun a => p a)).getLast?

theorem lastWith_concat (a : α) :
    lastWith p (l ++ [a]) = if p a then some a else lastWith p l := by
  rw [lastWith, List.filter_append]
  by_cases h : p a
  · rw [if_pos h, List.filter_cons_of_pos (by simpa using h), List.filter_nil,
      List.getLast?_concat]
  · rw [if_neg h, List.filter_cons_of_neg (by simpa using h), List.filter_nil, List.append_nil]
    rfl

theorem lastWith_eq_some {a : α} (h : lastWith p l = some a) : a ∈ l ∧ p a := by
  have hmem := List.mem_of_getLast? h
  rw [List.mem_filter, decide_eq_true_iff] at hmem
  exact hmem

theorem lastWith_eq_none : lastWith p l = none ↔ ∀ a ∈ l, ¬ p a := by
  rw [lastWith, List.getLast?_eq_none_iff, List.filter_eq_nil_iff]
  simp only [decide_eq_true_eq]

theorem lastWith_eq_find? {β : Type} [DecidableEq β] {f : α → β} (h : (l.map f).Nodup) (k : β) :
    lastWith (fun a => f a = k) l = l.find? (fun a => f a = k) := by
  rw [lastWith, ← List.head?_filter]
  have hsub := (List.filter_sublist (p := fun a => decide (f a = k)) (l := l)).map f
  have hnodup := List.Nodup.sublist hsub h
  have hall : ∀ a ∈ l.filter (fun a => decide (f a = k)), f a = k := by simp
  cases hl : l.filter (fun a => decide (f a = k)) with
  | nil => rfl
  | cons a rest =>
    cases rest with
    | nil => rfl
    | cons b rest =>
      rw [hl] at hnodup hall
      have hab : f a = f b := by rw [hall a (by simp), hall b (by simp)]
      rw [List.map_cons, List.nodup_cons] at hnodup
      exact absurd (by simp [hab]) hnodup.1

end

/-- Entries that are set in turn. -/
theorem lookup_foldl_mapSet {α : Type} (f : α → κ) (g : α → ν) (l : List α) (k : κ) :
    (l.foldl (fun m a => mapSet m (f a) (g a)) []).lookup k
      = (lastWith (fun a => f a = k) l).map g := by
  induction l using List.reverseRecOn with
  | nil => rfl
  | append_singleton l a ih =>
    rw [List.foldl_append, List.foldl_cons, List.foldl_nil, lookup_mapSet, lastWith_concat, ih]
    by_cases h : f a = k
    · rw [if_pos h.symm, if_pos h, Option.map_some]
    · rw [if_neg (Ne.symm h), if_neg h]

end Bufi.Js
