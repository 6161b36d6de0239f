import Mathlib.Data.Set.Card
import Mathlib.Logic.Function.Basic

/-!
# Mappings that hold a set

A contract keeps a set as a `mapping(K => bool)`, and often a counter beside
it.  `countTrue m` is what such a counter should say: how many keys the mapping
holds.  A write changes it by one or not at all, according to what was there.
`insertAll` is the loop that writes `true` for every element of an array,
`insertCounted` a turn of the loop that counts the new ones as well, and `setAll`
the loop that writes a value for every key of an array, where a later entry
replaces an earlier one.
-/

namespace Bufi.Evm

variable {K V : Type}

/-- The number of keys a mapping holds. -/
noncomputable def countTrue (m : K → Bool) : ℕ := {k | m k = true}.ncard

theorem countTrue_empty : countTrue (fun _ : K => false) = 0 := by
  simp [countTrue]

variable [DecidableEq K]

theorem setOf_update_true (m : K → Bool) (k : K) :
    {x | Function.update m k true x = true} = insert k {x | m x = true} := by
  ext x
  by_cases hx : x = k
  · subst hx; simp
  · simp [hx]

theorem setOf_update_false (m : K → Bool) (k : K) :
    {x | Function.update m k false x = true} = {x | m x = true} \ {k} := by
  ext x
  by_cases hx : x = k
  · subst hx; simp
  · simp [hx]

variable [Finite K]

theorem countTrue_insert {m : K → Bool} {k : K} (h : m k = false) :
    countTrue (Function.update m k true) = countTrue m + 1 := by
  rw [countTrue, setOf_update_true]
  exact Set.ncard_insert_of_notMem (by simp [h]) (Set.toFinite _)

theorem countTrue_erase {m : K → Bool} {k : K} (h : m k = true) :
    countTrue (Function.update m k false) + 1 = countTrue m := by
  rw [countTrue, setOf_update_false]
  exact Set.ncard_sdiff_singleton_add_one (show k ∈ {x | m x = true} from h) (Set.toFinite _)

/-- One turn of a loop that adds keys and counts the new ones. -/
def insertCounted (acc : ℕ × (K → Bool)) (k : K) : ℕ × (K → Bool) :=
  if acc.2 k then acc else (acc.1 + 1, Function.update acc.2 k true)

theorem insertCounted_count {acc : ℕ × (K → Bool)} (h : acc.1 = countTrue acc.2) (k : K) :
    (insertCounted acc k).1 = countTrue (insertCounted acc k).2 := by
  rw [insertCounted]
  split_ifs with hk
  · exact h
  · rw [countTrue_insert (by simpa using hk), h]

theorem foldl_insertCounted_count (l : List K) {acc : ℕ × (K → Bool)}
    (h : acc.1 = countTrue acc.2) :
    (l.foldl insertCounted acc).1 = countTrue (l.foldl insertCounted acc).2 := by
  induction l generalizing acc with
  | nil => exact h
  | cons k l ih => exact ih (insertCounted_count h k)

omit [Finite K]

/-! ### Loops over arrays -/

/-- `for x in xs: m[x] = true`. -/
def insertAll (m : K → Bool) (xs : List K) : K → Bool :=
  xs.foldl (fun m x => Function.update m x true) m

theorem insertAll_apply (m : K → Bool) (xs : List K) (k : K) :
    insertAll m xs k = (m k || decide (k ∈ xs)) := by
  induction xs generalizing m with
  | nil => simp [insertAll]
  | cons x xs ih =>
    rw [insertAll, List.foldl_cons]
    change insertAll (Function.update m x true) xs k = _
    rw [ih]
    by_cases hk : k = x
    · subst hk; simp
    · simp [hk]

/-- The counting loop inserts what the plain loop does. -/
theorem foldl_insertCounted_snd (l : List K) (acc : ℕ × (K → Bool)) :
    (l.foldl insertCounted acc).2 = insertAll acc.2 l := by
  induction l generalizing acc with
  | nil => rfl
  | cons k l ih =>
    rw [List.foldl_cons, ih]
    change insertAll (insertCounted acc k).2 l = insertAll (Function.update acc.2 k true) l
    rw [insertCounted]
    split_ifs with hk
    · rw [Function.update_eq_self_iff.mpr hk.symm]
    · rfl

/-- `for (k, v) in kvs: m[k] = v`. -/
def setAll (m : K → V) (kvs : List (K × V)) : K → V :=
  kvs.foldl (fun m kv => Function.update m kv.1 kv.2) m

/-- The last entry of a list of pairs under a key. -/
def lastEntry (kvs : List (K × V)) (k : K) : Option V :=
  (kvs.reverse.find? (fun kv => kv.1 = k)).map Prod.snd

theorem setAll_apply (m : K → V) (kvs : List (K × V)) (k : K) :
    setAll m kvs k = (lastEntry kvs k).getD (m k) := by
  induction kvs using List.reverseRecOn with
  | nil => rfl
  | append_singleton kvs kv ih =>
    rw [setAll, List.foldl_append, List.foldl_cons, List.foldl_nil]
    change Function.update (setAll m kvs) kv.1 kv.2 k = _
    rw [lastEntry, List.reverse_append, List.reverse_singleton, List.singleton_append,
      List.find?_cons]
    by_cases hk : kv.1 = k
    · subst hk; simp
    · rw [Function.update_of_ne (Ne.symm hk), ih]
      simp [hk, lastEntry]

theorem setAll_of_notMem {kvs : List (K × V)} {k : K} (h : k ∉ kvs.map Prod.fst) (m : K → V) :
    setAll m kvs k = m k := by
  induction kvs generalizing m with
  | nil => rfl
  | cons kv kvs ih =>
    rw [List.map_cons, List.mem_cons, not_or] at h
    rw [setAll, List.foldl_cons]
    change setAll (Function.update m kv.1 kv.2) kvs k = m k
    rw [ih h.2, Function.update_of_ne h.1]

/-- Where no key repeats, every entry is written. -/
theorem setAll_of_mem {kvs : List (K × V)} (hn : (kvs.map Prod.fst).Nodup) {kv : K × V}
    (h : kv ∈ kvs) (m : K → V) : setAll m kvs kv.1 = kv.2 := by
  induction kvs generalizing m with
  | nil => simp at h
  | cons p kvs ih =>
    rw [List.map_cons, List.nodup_cons] at hn
    rw [setAll, List.foldl_cons]
    change setAll (Function.update m p.1 p.2) kvs kv.1 = kv.2
    rcases List.mem_cons.mp h with rfl | h
    · rw [setAll_of_notMem hn.1, Function.update_self]
    · exact ih hn.2 h _

instance finiteWord {n : ℕ} : Finite (BitVec n) := Finite.of_injective BitVec.toFin (by
  intro a b h
  exact BitVec.eq_of_toFin_eq h)

end Bufi.Evm
