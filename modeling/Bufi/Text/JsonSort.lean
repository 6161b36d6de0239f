import Bufi.Text.JsonRender
import Mathlib.Data.List.Lex
import Mathlib.Data.List.Sort

/-!
# The order of keys

The entries of a JSON object have an order in the text, and none in what they mean.
`Same` is equality up to that order, at every depth.  `sortKeys` puts the entries of every
object in the order of their keys, code unit by code unit.  Among values whose objects have
every key once, those that are the same are exactly those that are sorted to one value
(`sortKeys_eq_iff`).
-/

namespace Bufi.Text

/-! ### Sorting entries -/

/-- The order of strings by their code units. -/
def KeyLe (a b : Utf16) : Prop := a.map UInt16.toNat ≤ b.map UInt16.toNat

instance : DecidableRel KeyLe := fun a b =>
  inferInstanceAs (Decidable (a.map UInt16.toNat ≤ b.map UInt16.toNat))

theorem keyLe_total (a b : Utf16) : KeyLe a b ∨ KeyLe b a := le_total _ _

theorem keyLe_trans {a b c : Utf16} (hab : KeyLe a b) (hbc : KeyLe b c) : KeyLe a c :=
  le_trans hab hbc

theorem keyLe_antisymm {a b : Utf16} (hab : KeyLe a b) (hba : KeyLe b a) : a = b :=
  List.map_injective_iff.mpr (fun _ _ => UInt16.toNat_inj.mp) (le_antisymm hab hba)

section

variable {α β : Type}

/-- The order of entries by their keys. -/
def EntryLe (a b : Utf16 × α) : Prop := KeyLe a.1 b.1

instance : DecidableRel (EntryLe (α := α)) := fun a b => inferInstanceAs (Decidable (KeyLe a.1 b.1))

instance : Std.Total (EntryLe (α := α)) := ⟨fun a b => keyLe_total a.1 b.1⟩

instance : IsTrans (Utf16 × α) EntryLe := ⟨fun _ _ _ => keyLe_trans⟩

def sortEntries (l : List (Utf16 × α)) : List (Utf16 × α) := l.insertionSort EntryLe

theorem perm_sortEntries (l : List (Utf16 × α)) : (sortEntries l).Perm l :=
  List.perm_insertionSort EntryLe l

/-- Sorting does not look at the values. -/
theorem map_sortEntries (f : Utf16 × α → β) (l : List (Utf16 × α)) :
    (sortEntries l).map (fun e => (e.1, f e)) = sortEntries (l.map (fun e => (e.1, f e))) :=
  List.map_insertionSort EntryLe EntryLe _ l (fun _ _ _ _ => Iff.rfl)

/-- Entries with one key are equal. -/
theorem eq_of_nodup_keys {l : List (Utf16 × α)} (h : (l.map Prod.fst).Nodup) {a b : Utf16 × α}
    (ha : a ∈ l) (hb : b ∈ l) (hkey : a.1 = b.1) : a = b :=
  List.inj_on_of_nodup_map h ha hb hkey

/-- **The order of the entries does not matter** if every key is there once. -/
theorem sortEntries_eq_of_perm {l m : List (Utf16 × α)} (h : (l.map Prod.fst).Nodup)
    (hperm : l.Perm m) : sortEntries l = sortEntries m := by
  refine List.Perm.eq_of_pairwise ?_ (List.pairwise_insertionSort EntryLe l)
    (List.pairwise_insertionSort EntryLe m)
    ((perm_sortEntries l).trans (hperm.trans (perm_sortEntries m).symm))
  intro a b ha hb hab hba
  have hal : a ∈ l := (perm_sortEntries l).mem_iff.mp ha
  have hbl : b ∈ l := hperm.mem_iff.mpr ((perm_sortEntries m).mem_iff.mp hb)
  exact eq_of_nodup_keys h hal hbl (keyLe_antisymm hab hba)

end

namespace Json

variable {N : Type}

/-! ### Values -/

mutual

/-- The value with the entries of its objects in the order of their keys. -/
def sortKeys : Json N → Json N
  | null => null
  | bool b => bool b
  | number x => number x
  | string s => string s
  | array l => array (sortItems l)
  | object l => object (sortEntries (sortMembers l))

def sortItems : List (Json N) → List (Json N)
  | [] => []
  | v :: l => sortKeys v :: sortItems l

def sortMembers : List (Utf16 × Json N) → List (Utf16 × Json N)
  | [] => []
  | (k, v) :: l => (k, sortKeys v) :: sortMembers l

end

mutual

/-- Equality up to the order of entries. -/
def Same : Json N → Json N → Prop
  | null, w => w = null
  | bool b, w => w = bool b
  | number x, w => w = number x
  | string s, w => w = string s
  | array l, w => ∃ m, w = array m ∧ SameItems l m
  | object l, w => ∃ m, w = object m ∧ SameEntries l m

def SameItems : List (Json N) → List (Json N) → Prop
  | [], m => m = []
  | v :: l, m => ∃ w m', m = w :: m' ∧ Same v w ∧ SameItems l m'

/-- Every entry has its partner, wherever it is. -/
def SameEntries : List (Utf16 × Json N) → List (Utf16 × Json N) → Prop
  | [], m => m = []
  | (k, v) :: l, m => ∃ w m', m.Perm ((k, w) :: m') ∧ Same v w ∧ SameEntries l m'

end

mutual

/-- Every object of the value has every key once. -/
def DistinctKeys : Json N → Prop
  | null | bool _ | number _ | string _ => True
  | array l => DistinctItems l
  | object l => (l.map Prod.fst).Nodup ∧ DistinctMembers l

def DistinctItems : List (Json N) → Prop
  | [] => True
  | v :: l => DistinctKeys v ∧ DistinctItems l

def DistinctMembers : List (Utf16 × Json N) → Prop
  | [] => True
  | (_, v) :: l => DistinctKeys v ∧ DistinctMembers l

end

/-! ### Lists -/

theorem sortItems_eq (l : List (Json N)) : sortItems l = l.map sortKeys := by
  induction l with
  | nil => rfl
  | cons v l ih => rw [sortItems, ih, List.map_cons]

theorem sortMembers_eq (l : List (Utf16 × Json N)) :
    sortMembers l = l.map (fun e => (e.1, e.2.sortKeys)) := by
  induction l with
  | nil => rfl
  | cons e l ih => rw [sortMembers, ih, List.map_cons]

theorem distinctItems_iff {l : List (Json N)} :
    DistinctItems l ↔ ∀ v ∈ l, v.DistinctKeys := by
  induction l with
  | nil => simp [DistinctItems]
  | cons v l ih => rw [DistinctItems, ih, List.forall_mem_cons]

theorem distinctMembers_iff {l : List (Utf16 × Json N)} :
    DistinctMembers l ↔ ∀ e ∈ l, e.2.DistinctKeys := by
  induction l with
  | nil => simp [DistinctMembers]
  | cons e l ih => rw [DistinctMembers, ih, List.forall_mem_cons]

theorem sameItems_iff {f : Json N → Json N} {l m : List (Json N)}
    (h : ∀ v ∈ l, ∀ w ∈ m, f v = f w ↔ Same v w) : l.map f = m.map f ↔ SameItems l m := by
  induction l generalizing m with
  | nil => rw [SameItems, List.map_nil, eq_comm, List.map_eq_nil_iff]
  | cons v l ih =>
    rw [SameItems]
    cases m with
    | nil => exact iff_of_false (List.cons_ne_nil _ _) (by simp)
    | cons w m =>
      have htail := ih (m := m) (fun v hv w hw =>
        h v (List.mem_cons_of_mem _ hv) w (List.mem_cons_of_mem _ hw))
      rw [List.map_cons, List.map_cons, List.cons.injEq, htail,
        h v List.mem_cons_self w List.mem_cons_self]
      constructor
      · rintro ⟨hhead, hrest⟩
        exact ⟨w, m, rfl, hhead, hrest⟩
      · rintro ⟨w', m', heq, hhead, hrest⟩
        obtain ⟨rfl, rfl⟩ := List.cons.inj heq
        exact ⟨hhead, hrest⟩

/-- Entries have their partners exactly if they are, after a change of their values that
identifies the same ones, a permutation of each other. -/
theorem sameEntries_iff {f : Json N → Json N} {l m : List (Utf16 × Json N)}
    (h : ∀ e ∈ l, ∀ e' ∈ m, f e.2 = f e'.2 ↔ Same e.2 e'.2) :
    (l.map (fun e => (e.1, f e.2))).Perm (m.map (fun e => (e.1, f e.2))) ↔ SameEntries l m := by
  induction l generalizing m with
  | nil =>
    rw [SameEntries, List.map_nil, List.nil_perm, List.map_eq_nil_iff]
  | cons e l ih =>
    obtain ⟨k, v⟩ := e
    have hl : ∀ {m' : List (Utf16 × Json N)}, (∀ e ∈ m', e ∈ m) →
        ∀ e ∈ l, ∀ e' ∈ m', f e.2 = f e'.2 ↔ Same e.2 e'.2 :=
      fun hsub e he e' he' => h e (List.mem_cons_of_mem _ he) e' (hsub e' he')
    rw [SameEntries, List.map_cons]
    constructor
    · intro hperm
      obtain ⟨⟨k', w⟩, hw, heq⟩ := List.mem_map.mp (hperm.subset List.mem_cons_self)
      obtain ⟨rfl, hvalue⟩ := Prod.mk.inj heq
      obtain ⟨s, t, rfl⟩ := List.append_of_mem hw
      have hmiddle : (s ++ (k', w) :: t).Perm ((k', w) :: (s ++ t)) := List.perm_middle
      refine ⟨w, s ++ t, hmiddle, (h _ List.mem_cons_self _ hw).mp hvalue.symm, ?_⟩
      have hrest := hperm.trans (hmiddle.map (fun e => (e.1, f e.2)))
      rw [List.map_cons, hvalue] at hrest
      exact (ih (hl (fun e he => hmiddle.mem_iff.mpr (List.mem_cons_of_mem _ he)))).mp
        hrest.cons_inv
    · rintro ⟨w, m', hperm, hhead, hrest⟩
      have hw : (k, w) ∈ m := hperm.mem_iff.mpr List.mem_cons_self
      have hvalue : f v = f w := (h _ List.mem_cons_self _ hw).mpr hhead
      have htail := (ih (hl (fun e he => hperm.mem_iff.mpr (List.mem_cons_of_mem _ he)))).mpr hrest
      have hmap := hperm.map (fun e => (e.1, f e.2))
      rw [List.map_cons] at hmap
      rw [hvalue]
      exact (htail.cons _).trans hmap.symm

theorem map_fst_sortMembers (l : List (Utf16 × Json N)) :
    (sortMembers l).map Prod.fst = l.map Prod.fst := by
  rw [sortMembers_eq, List.map_map]
  rfl

/-! ### The theorem -/

/-- **Values are the same up to the order of keys exactly if they are sorted to one value.** -/
theorem sortKeys_eq_iff {v w : Json N} (hv : v.DistinctKeys) (hw : w.DistinctKeys) :
    v.sortKeys = w.sortKeys ↔ Same v w := by
  induction v using induct generalizing w with
  | hnull => cases w <;> simp [sortKeys, Same]
  | hbool b => cases w <;> simp [sortKeys, Same, eq_comm]
  | hnumber x => cases w <;> simp [sortKeys, Same, eq_comm]
  | hstring s => cases w <;> simp [sortKeys, Same, eq_comm]
  | harray l ih =>
    rw [Same]
    cases w with
    | array m =>
      rw [DistinctKeys, distinctItems_iff] at hv hw
      have hitems := sameItems_iff (f := sortKeys) (l := l) (m := m)
        (fun v hmem w hmem' => ih v hmem (hv v hmem) (hw w hmem'))
      rw [sortKeys, sortKeys, array.injEq, sortItems_eq, sortItems_eq, hitems]
      constructor
      · intro h
        exact ⟨m, rfl, h⟩
      · rintro ⟨m', heq, h⟩
        rwa [array.inj heq]
    | _ => simp [sortKeys]
  | hobject l ih =>
    rw [Same]
    cases w with
    | object m =>
      obtain ⟨hnodup, hv⟩ := hv
      obtain ⟨-, hw⟩ := hw
      rw [distinctMembers_iff] at hv hw
      have hentries := sameEntries_iff (f := sortKeys) (l := l) (m := m)
        (fun e hmem e' hmem' => ih e hmem (hv e hmem) (hw e' hmem'))
      rw [← sortMembers_eq, ← sortMembers_eq] at hentries
      rw [sortKeys, sortKeys, object.injEq]
      constructor
      · intro h
        refine ⟨m, rfl, hentries.mp ?_⟩
        have hperm := perm_sortEntries (sortMembers m)
        rw [← h] at hperm
        exact (perm_sortEntries (sortMembers l)).symm.trans hperm
      · rintro ⟨m', heq, h⟩
        obtain rfl := object.inj heq
        refine sortEntries_eq_of_perm ?_ (hentries.mpr h)
        rwa [map_fst_sortMembers]
    | _ => simp [sortKeys]

theorem sameEntries_of_perm {l m m' : List (Utf16 × Json N)} (h : SameEntries l m)
    (hperm : m.Perm m') : SameEntries l m' := by
  cases l with
  | nil =>
    obtain rfl := h
    exact List.nil_perm.mp hperm
  | cons e l =>
    obtain ⟨w, rest, hm, hhead, hrest⟩ := h
    exact ⟨w, rest, hperm.symm.trans hm, hhead, hrest⟩

/-- Entries with the same keys in the same order are the same one by one. -/
theorem forall₂_of_sameEntries {l m : List (Utf16 × Json N)}
    (hkeys : l.map Prod.fst = m.map Prod.fst) (hnodup : (l.map Prod.fst).Nodup)
    (h : SameEntries l m) : List.Forall₂ (fun e e' => Same e.2 e'.2) l m := by
  induction l generalizing m with
  | nil =>
    obtain rfl := h
    exact .nil
  | cons e l ih =>
    obtain ⟨k, v⟩ := e
    cases m with
    | nil => cases hkeys
    | cons e' m =>
      obtain ⟨k', w'⟩ := e'
      obtain ⟨w, rest, hperm, hhead, hrest⟩ := h
      rw [List.map_cons, List.map_cons, List.cons.injEq] at hkeys
      obtain rfl : k = k' := hkeys.1
      -- the partner has the same key, so it is the entry at the same place
      have hw : (k, w) ∈ (k, w') :: m := hperm.mem_iff.mpr List.mem_cons_self
      have hnodup' : (((k, w') :: m).map Prod.fst).Nodup := by
        rw [List.map_cons, ← hkeys.2]
        exact hnodup
      obtain rfl : w = w' := congrArg Prod.snd
        (eq_of_nodup_keys hnodup' hw List.mem_cons_self rfl)
      exact .cons hhead (ih hkeys.2 (List.nodup_cons.mp hnodup).2
        (sameEntries_of_perm hrest hperm.cons_inv.symm))

/-- **Sorting keeps a value the same.** -/
theorem same_sortKeys (v : Json N) : Same v v.sortKeys := by
  induction v using induct with
  | hnull => rfl
  | hbool b => rfl
  | hnumber x => rfl
  | hstring s => rfl
  | harray l ih =>
    rw [Same, sortKeys]
    refine ⟨_, rfl, ?_⟩
    induction l with
    | nil => rfl
    | cons v l ihl =>
      obtain ⟨hv, hl⟩ := List.forall_mem_cons.mp ih
      exact ⟨_, _, rfl, hv, ihl hl⟩
  | hobject l ih =>
    rw [Same, sortKeys]
    refine ⟨_, rfl, ?_⟩
    have hgeneral : ∀ m, m.Perm (sortMembers l) → SameEntries l m := by
      induction l with
      | nil =>
        intro m hm
        exact List.perm_nil.mp hm
      | cons e l ihl =>
        intro m hm
        obtain ⟨he, hl⟩ := List.forall_mem_cons.mp ih
        exact ⟨_, _, hm, he, ihl hl _ (List.Perm.refl _)⟩
    exact hgeneral _ (perm_sortEntries _)

/-- What holds of all strings and numbers is not changed by sorting. -/
theorem all_sortKeys {okString : Utf16 → Bool} {okNumber : N → Bool} {v : Json N}
    (h : v.all okString okNumber = true) : v.sortKeys.all okString okNumber = true := by
  induction v using induct with
  | hnull => exact h
  | hbool b => exact h
  | hnumber x => exact h
  | hstring s => exact h
  | harray l ih =>
    rw [all, allItems_iff] at h
    rw [sortKeys, all, allItems_iff, sortItems_eq]
    exact List.forall_mem_map.mpr (fun v hv => ih v hv (h v hv))
  | hobject l ih =>
    rw [all, allEntries_iff] at h
    rw [sortKeys, all, allEntries_iff]
    intro e he
    rw [(perm_sortEntries (sortMembers l)).mem_iff, sortMembers_eq] at he
    obtain ⟨e', he', rfl⟩ := List.mem_map.mp he
    exact ⟨(h e' he').1, ih e' he' (h e' he').2⟩

end Json

end Bufi.Text
