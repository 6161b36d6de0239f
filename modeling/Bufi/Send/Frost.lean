import Bufi.Evm.Checks
import Bufi.Js.Collections
import Mathlib.Data.List.Pairwise
import Mathlib.Data.List.Sort
import Mathlib.Data.Finset.Dedup
import Mathlib.Data.Finset.Card

/-!
# The FROST delegate

`frost-delegate` turns weights into numbers of shares.  `runDkg` is the part of
`run_dkg` that hands out share ids, in 16-bit arithmetic that wraps in a release
build, and `assignShares` its `owners.json`; `resolveShares` and `signCheck` are the
part of `sign` that decides whether the listed owners have enough shares.

Ids are handed out one range after another.  A sum that wraps leaves the owner
with no shares at all, so where every owner has a share the ranges are disjoint
(`assignShares_separated`) and the shares of some owners are as many as their
weights add up to (`signCheck_eq_ok`).
-/

namespace Bufi.Send

open Bufi.Evm Bufi.Js

/-- `owners.json`; the entries of `shares` have distinct labels. -/
structure Owners where
  threshold : ℕ
  shares : List (String × List ℕ)
  deriving DecidableEq

inductive DkgError
  | notLabelWeight
  | notAnInteger
  | zeroWeight
  | duplicateOwner (label : String)
  | badThreshold
  deriving DecidableEq

def DkgError.text : DkgError → String
  | notLabelWeight => "owner as LABEL:WEIGHT"
  | notAnInteger => "integer weight"
  | zeroWeight => "weight must be >= 1"
  | duplicateOwner label => "duplicate owner " ++ label
  | badThreshold => "threshold must be in [2, total shares]"

/-! ### Handing out shares -/

/-- `s.split(c)`. -/
def splitChar (c : Char) (s : String) : List String := (s.toList.splitOn c).map String.ofList

/-- `s.split_once(':')`. -/
def splitOnce (s : String) : Option (String × String) :=
  let label := s.toList.takeWhile (· ≠ ':')
  match s.toList.dropWhile (· ≠ ':') with
  | [] => none
  | _ :: rest => some (String.ofList label, String.ofList rest)

/-- The digits of a number, most significant first. -/
def digitsValue (digits : List Char) : ℕ :=
  digits.foldl (fun n c => 10 * n + (c.toNat - '0'.toNat)) 0

/-- `s.parse::<u16>()`. -/
def parseU16 (s : String) : Option ℕ :=
  let digits := if s.toList.head? = some '+' then s.toList.tail else s.toList
  if digits ≠ [] ∧ digits.all Char.isDigit = true ∧ digitsValue digits < 65536 then
    some (digitsValue digits)
  else none

/-- The loop over the parts of the owner list; `next` is the next share id. -/
def assignLoop : List (String × List ℕ) → ℕ → List String →
    Except DkgError (List (String × List ℕ) × ℕ)
  | shares, next, [] => pure (shares, next)
  | shares, next, part :: rest => do
    let (label, digits) ← orRevert (splitOnce part) .notLabelWeight
    let weight ← orRevert (parseU16 digits) .notAnInteger
    require (1 ≤ weight) .zeroWeight
    require (label ∉ shares.map Prod.fst) (.duplicateOwner label)
    let next' := (next + weight) % 65536
    assignLoop (shares ++ [(label, List.range' next (next' - next))]) next' rest

/-- `group.json`, without the key. -/
structure Group where
  threshold : ℕ
  totalShares : ℕ
  deriving DecidableEq

/-- `run_dkg`: `owners.json` and `group.json`, once the arguments are checked. -/
def runDkg (ownersSpec : String) (threshold : ℕ) : Except DkgError (Owners × Group) := do
  let (shares, next) ← assignLoop [] 1 (splitChar ',' ownersSpec)
  let n := (next + 65535) % 65536
  require (2 ≤ threshold ∧ threshold ≤ n) .badThreshold
  pure (⟨threshold, shares⟩, ⟨threshold, n⟩)

/-- The `owners.json` of `run_dkg`. -/
def assignShares (ownersSpec : String) (threshold : ℕ) : Except DkgError Owners :=
  (runDkg ownersSpec threshold).map Prod.fst

/-! ### Counting shares -/

inductive SignError
  | duplicateSigner (label : String)
  | unknownOwner (label : String)
  | belowThreshold (shares threshold : ℕ)
  deriving DecidableEq

/-- The loop over the labels, with those it has `seen` and the ids found. -/
def resolveLoop (owners : Owners) : List String → List ℕ → List String →
    Except SignError (List ℕ)
  | _, ids, [] => pure ids
  | seen, ids, label :: rest => do
    require (label ∉ seen) (.duplicateSigner label)
    let shares ← orRevert (owners.shares.lookup label) (.unknownOwner label)
    resolveLoop owners (seen ++ [label]) (ids ++ shares) rest

/-- The ids come out of a set: each once, in ascending order. -/
def resolveShares (owners : Owners) (signers : String) : Except SignError (List ℕ) := do
  let ids ← resolveLoop owners [] [] (splitChar ',' signers)
  pure (ids.dedup.insertionSort (· ≤ ·))

/-- The check of `sign` before any share is used. -/
def signCheck (owners : Owners) (signers : String) : Except SignError (List ℕ) := do
  let ids ← resolveShares owners signers
  require (owners.threshold ≤ ids.length) (.belowThreshold ids.length owners.threshold)
  pure ids

/-- `labels.join(',')`. -/
def joinComma (labels : List String) : String :=
  String.ofList ([','].intercalate (labels.map String.toList))

/-! ### Disjoint ranges -/

section

variable {shares shares' : List (String × List ℕ)} {next next' : ℕ}

/-- Every id is below `next`, and no id has two owners. -/
structure Separated (shares : List (String × List ℕ)) (next : ℕ) : Prop where
  lt : ∀ e ∈ shares, ∀ i ∈ e.2, i < next
  nodup : ∀ e ∈ shares, e.2.Nodup
  disjoint : shares.Pairwise (fun a b => a.2.Disjoint b.2)
  total : next = 1 + (shares.map (fun e => e.2.length)).sum
  no_comma : ∀ e ∈ shares, ',' ∉ e.1.toList

theorem assignLoop_cons {part : String} {rest : List String} :
    assignLoop shares next (part :: rest) = .ok (shares', next')
      ↔ ∃ label digits weight, splitOnce part = some (label, digits)
        ∧ parseU16 digits = some weight ∧ 1 ≤ weight ∧ label ∉ shares.map Prod.fst
        ∧ assignLoop
          (shares ++ [(label, List.range' next ((next + weight) % 65536 - next))])
          ((next + weight) % 65536) rest = .ok (shares', next') := by
  simp only [assignLoop, bind_eq_ok, orRevert_eq_ok, require_eq_ok, exists_const, Prod.exists]
  constructor
  · rintro ⟨label, digits, hs, weight, hw, h⟩
    exact ⟨label, digits, weight, hs, hw, h⟩
  · rintro ⟨label, digits, weight, hs, hw, h⟩
    exact ⟨label, digits, hs, weight, hw, h⟩

theorem assignLoop_subset {parts : List String}
    (h : assignLoop shares next parts = .ok (shares', next')) : shares ⊆ shares' := by
  induction parts generalizing shares next with
  | nil =>
    obtain ⟨rfl, rfl⟩ := Prod.mk.inj (pure_eq_ok.mp h)
    exact List.Subset.refl _
  | cons part rest ih =>
    obtain ⟨label, digits, weight, -, -, -, -, h⟩ := assignLoop_cons.mp h
    exact List.Subset.trans (List.subset_append_left _ _) (ih h)

theorem assignLoop_nodup {parts : List String} (hnodup : (shares.map Prod.fst).Nodup)
    (h : assignLoop shares next parts = .ok (shares', next')) :
    (shares'.map Prod.fst).Nodup := by
  induction parts generalizing shares next with
  | nil =>
    obtain ⟨rfl, rfl⟩ := Prod.mk.inj (pure_eq_ok.mp h)
    exact hnodup
  | cons part rest ih =>
    obtain ⟨label, digits, weight, -, -, -, hnew, hrest⟩ := assignLoop_cons.mp h
    refine ih ?_ hrest
    rw [List.map_append]
    refine List.nodup_append.mpr ⟨hnodup, List.nodup_singleton _, ?_⟩
    rintro a ha b hb rfl
    rw [List.mem_singleton.mp hb] at ha
    exact hnew ha

theorem parseU16_lt {s : String} {w : ℕ} (h : parseU16 s = some w) : w < 65536 := by
  rw [parseU16] at h
  obtain ⟨⟨-, -, hlt⟩, heq⟩ := Option.ite_none_right_eq_some.mp h
  rwa [Option.some.inj heq] at hlt

theorem splitOnce_mem {s label digits : String} (h : splitOnce s = some (label, digits)) {c : Char}
    (hc : c ∈ label.toList) : c ∈ s.toList := by
  unfold splitOnce at h
  simp only at h
  split at h
  · cases h
  · obtain ⟨rfl, -⟩ := Prod.mk.inj (Option.some.inj h)
    rw [String.toList_ofList] at hc
    exact (List.takeWhile_sublist _).subset hc

/-- **A wrapped sum leaves an owner without shares**, so when nobody is, the next
range starts after all others. -/
theorem Separated.assignLoop {parts : List String} (hs : Separated shares next)
    (hnext : next < 65536) (hcomma : ∀ part ∈ parts, ',' ∉ part.toList)
    (h : assignLoop shares next parts = .ok (shares', next')) (hne : ∀ e ∈ shares', e.2 ≠ []) :
    Separated shares' next' := by
  induction parts generalizing shares next with
  | nil =>
    obtain ⟨rfl, rfl⟩ := Prod.mk.inj (pure_eq_ok.mp h)
    exact hs
  | cons part rest ih =>
    obtain ⟨label, digits, weight, hsplit, hparse, hw, hnew, hrest⟩ := assignLoop_cons.mp h
    have hmem := assignLoop_subset hrest
      (List.mem_append_right _ (List.mem_singleton_self (label, _)))
    have hwlt := parseU16_lt hparse
    have hsum : next + weight < 65536 := by
      by_contra hover
      refine hne _ hmem ?_
      rw [List.range'_eq_nil_iff]
      omega
    have hmod : (next + weight) % 65536 = next + weight := Nat.mod_eq_of_lt hsum
    rw [hmod, Nat.add_sub_cancel_left] at hrest
    refine ih ⟨?_, ?_, ?_, ?_, ?_⟩ hsum (fun p hp => hcomma p (List.mem_cons_of_mem _ hp)) hrest
    · intro e he i hi
      rcases List.mem_append.mp he with he | he
      · have := hs.lt e he i hi
        omega
      · rw [List.mem_singleton.mp he, List.mem_range'_1] at hi
        omega
    · intro e he
      rcases List.mem_append.mp he with he | he
      · exact hs.nodup e he
      · rw [List.mem_singleton.mp he]
        exact List.nodup_range' ..
    · refine List.pairwise_append.mpr ⟨hs.disjoint, List.pairwise_singleton _ _, ?_⟩
      intro a ha b hb i hia hib
      rw [List.mem_singleton.mp hb, List.mem_range'_1] at hib
      have := hs.lt a ha i hia
      omega
    · have := hs.total
      simp only [List.map_append, List.map_cons, List.map_nil, List.sum_append, List.sum_cons,
        List.sum_nil, List.length_range']
      omega
    · intro e he
      rcases List.mem_append.mp he with he | he
      · exact hs.no_comma e he
      · rw [List.mem_singleton.mp he]
        exact fun hc => hcomma part List.mem_cons_self (splitOnce_mem hsplit hc)

theorem not_mem_of_mem_splitOn {c : Char} {s l : List Char} (h : l ∈ s.splitOn c) : c ∉ l := by
  induction s generalizing l with
  | nil =>
    rw [List.splitOn_nil, List.mem_singleton] at h
    rw [h]
    exact List.not_mem_nil
  | cons d s ih =>
    rw [List.splitOn_cons_eq_if_modifyHead] at h
    split_ifs at h with hd
    · rcases List.mem_cons.mp h with rfl | h
      · exact List.not_mem_nil
      · exact ih h
    · have hne : c ≠ d := fun he => hd (beq_iff_eq.mpr he.symm)
      cases hs : s.splitOn c with
      | nil => exact (List.splitOn_ne_nil c s hs).elim
      | cons first rest =>
        rw [hs] at h ih
        rcases List.mem_cons.mp h with rfl | h
        · rw [List.mem_cons, not_or]
          exact ⟨hne, ih List.mem_cons_self⟩
        · exact ih (List.mem_cons_of_mem _ h)

theorem no_comma_of_splitChar {s part : String} (h : part ∈ splitChar ',' s) :
    ',' ∉ part.toList := by
  obtain ⟨l, hl, rfl⟩ := List.mem_map.mp h
  rw [String.toList_ofList]
  exact not_mem_of_mem_splitOn hl

theorem runDkg_eq_ok {ownersSpec : String} {threshold : ℕ} {owners : Owners} {group : Group} :
    runDkg ownersSpec threshold = .ok (owners, group)
      ↔ ∃ shares next, assignLoop [] 1 (splitChar ',' ownersSpec) = .ok (shares, next)
        ∧ (2 ≤ threshold ∧ threshold ≤ (next + 65535) % 65536)
        ∧ owners = ⟨threshold, shares⟩ ∧ group = ⟨threshold, (next + 65535) % 65536⟩ := by
  simp only [runDkg, bind_eq_ok, require_eq_ok, exists_const, pure_eq_ok, Prod.exists,
    Prod.mk.injEq]

theorem assignShares_eq_ok {ownersSpec : String} {threshold : ℕ} {owners : Owners} :
    assignShares ownersSpec threshold = .ok owners
      ↔ ∃ group, runDkg ownersSpec threshold = .ok (owners, group) := by
  rw [assignShares, map_eq_ok]
  constructor
  · rintro ⟨⟨owners, group⟩, h, rfl⟩
    exact ⟨group, h⟩
  · rintro ⟨group, h⟩
    exact ⟨(owners, group), h, rfl⟩

theorem assignShares_nodup {ownersSpec : String} {threshold : ℕ} {owners : Owners}
    (h : assignShares ownersSpec threshold = .ok owners) :
    (owners.shares.map Prod.fst).Nodup := by
  obtain ⟨group, h⟩ := assignShares_eq_ok.mp h
  obtain ⟨shares, next, hloop, -, rfl, -⟩ := runDkg_eq_ok.mp h
  refine assignLoop_nodup ?_ hloop
  exact List.nodup_nil

theorem assignShares_separated {ownersSpec : String} {threshold : ℕ} {owners : Owners}
    (h : assignShares ownersSpec threshold = .ok owners) (hne : ∀ e ∈ owners.shares, e.2 ≠ []) :
    ∃ next, Separated owners.shares next ∧ owners.threshold ≤ (next + 65535) % 65536 := by
  obtain ⟨group, h⟩ := assignShares_eq_ok.mp h
  obtain ⟨shares, next, hloop, ⟨-, hle⟩, rfl, -⟩ := runDkg_eq_ok.mp h
  refine ⟨next, Separated.assignLoop ⟨?_, ?_, .nil, ?_, ?_⟩ (by decide)
    (fun part hp => no_comma_of_splitChar hp) hloop hne, hle⟩
  all_goals simp

end

/-! ### Counting -/

section

variable {owners : Owners} {next : ℕ}

/-- The ids of some labels, in their order. -/
def idsOf (owners : Owners) (labels : List String) : List ℕ :=
  labels.flatMap (fun label => (owners.shares.lookup label).getD [])

/-- How many shares a label has. -/
def shareCount (owners : Owners) (label : String) : ℕ :=
  ((owners.shares.lookup label).getD []).length

theorem lookup_isSome_iff {owners : Owners} {label : String} :
    (∃ shares, owners.shares.lookup label = some shares)
      ↔ label ∈ owners.shares.map Prod.fst := by
  rw [← Option.isSome_iff_exists, List.lookup_isSome_iff]
  simp

theorem resolveLoop_eq_ok {seen labels : List String} {ids out : List ℕ} :
    resolveLoop owners seen ids labels = .ok out
      ↔ labels.Nodup ∧ (∀ l ∈ labels, l ∉ seen) ∧ labels ⊆ owners.shares.map Prod.fst
        ∧ out = ids ++ idsOf owners labels := by
  induction labels generalizing seen ids with
  | nil =>
    rw [resolveLoop, pure_eq_ok]
    simp [idsOf]
  | cons label rest ih =>
    simp only [resolveLoop, bind_eq_ok, require_eq_ok, orRevert_eq_ok, exists_const, ih]
    constructor
    · rintro ⟨hseen, shares, hshares, hnodup, hrest, hknown, rfl⟩
      have hlabel : label ∉ rest := fun hm => hrest label hm (List.mem_append_right _ (by simp))
      refine ⟨List.nodup_cons.mpr ⟨hlabel, hnodup⟩, ?_, ?_, ?_⟩
      · intro l hl
        rcases List.mem_cons.mp hl with rfl | hl
        · exact hseen
        · exact fun hm => hrest l hl (List.mem_append_left _ hm)
      · exact List.cons_subset.mpr ⟨lookup_isSome_iff.mp ⟨shares, hshares⟩, hknown⟩
      · simp [idsOf, hshares]
    · rintro ⟨hnodup, hseen, hknown, rfl⟩
      obtain ⟨hlabel, hnodup⟩ := List.nodup_cons.mp hnodup
      obtain ⟨hmem, hknown⟩ := List.cons_subset.mp hknown
      obtain ⟨shares, hshares⟩ := lookup_isSome_iff.mpr hmem
      refine ⟨hseen label List.mem_cons_self, shares, hshares, hnodup, ?_, hknown, ?_⟩
      · intro l hl hm
        rcases List.mem_append.mp hm with hm | hm
        · exact hseen l (List.mem_cons_of_mem _ hl) hm
        · exact hlabel (List.mem_singleton.mp hm ▸ hl)
      · simp [idsOf, hshares]

instance disjointSymm :
    Std.Symm (fun a b : String × List ℕ => a.2.Disjoint b.2) where
  symm _ _ h := h.symm

/-- Distinct labels have distinct ids. -/
theorem Separated.idsOf_nodup (hs : Separated owners.shares next) {labels : List String}
    (hl : labels.Nodup) : (idsOf owners labels).Nodup := by
  rw [idsOf, List.nodup_flatMap]
  refine ⟨?_, hl.imp ?_⟩
  · intro label _
    cases hlook : owners.shares.lookup label with
    | none => exact List.nodup_nil
    | some shares => exact hs.nodup _ (mem_of_lookup hlook)
  · intro a b hab i hia hib
    cases ha : owners.shares.lookup a with
    | none => simp [ha] at hia
    | some sa =>
      cases hb : owners.shares.lookup b with
      | none => simp [hb] at hib
      | some sb =>
        simp only [ha, hb, Option.getD_some] at hia hib
        have hne : ((a, sa) : String × List ℕ) ≠ (b, sb) := fun he => hab (Prod.mk.inj he).1
        exact hs.disjoint.forall (mem_of_lookup ha) (mem_of_lookup hb) hne hia hib

/-- **The sign check counts weights.**  It passes exactly for distinct known
labels whose shares reach the threshold, and then uses the shares of these labels,
each once. -/
theorem Separated.signCheck_eq_ok (hs : Separated owners.shares next) {signers : String}
    {ids : List ℕ} :
    signCheck owners signers = .ok ids
      ↔ (splitChar ',' signers).Nodup ∧ splitChar ',' signers ⊆ owners.shares.map Prod.fst
        ∧ owners.threshold ≤ ((splitChar ',' signers).map (shareCount owners)).sum
        ∧ ids = (idsOf owners (splitChar ',' signers)).insertionSort (· ≤ ·) := by
  simp only [signCheck, resolveShares, bind_eq_ok, resolveLoop_eq_ok, require_eq_ok, exists_const,
    pure_eq_ok, List.nil_append]
  constructor
  · rintro ⟨_, ⟨_, ⟨hnodup, -, hknown, rfl⟩, rfl⟩, hle, rfl⟩
    rw [(hs.idsOf_nodup hnodup).dedup] at hle ⊢
    rw [List.length_insertionSort, idsOf, List.length_flatMap] at hle
    exact ⟨hnodup, hknown, hle, rfl⟩
  · rintro ⟨hnodup, hknown, hle, rfl⟩
    have hdedup := (hs.idsOf_nodup hnodup).dedup
    refine ⟨_, ⟨_, ⟨hnodup, by simp, hknown, rfl⟩, rfl⟩, ?_, ?_⟩
    · rwa [hdedup, List.length_insertionSort, idsOf, List.length_flatMap]
    · rw [hdedup]

theorem Separated.signCheck_nodup (hs : Separated owners.shares next) {signers : String}
    {ids : List ℕ} (h : signCheck owners signers = .ok ids) : ids.Nodup := by
  obtain ⟨hnodup, -, -, rfl⟩ := hs.signCheck_eq_ok.mp h
  exact (List.perm_insertionSort _ _).nodup_iff.mpr (hs.idsOf_nodup hnodup)

/-- The order of the labels does not matter. -/
theorem Separated.signCheck_perm (hs : Separated owners.shares next) {signers signers' : String}
    (hperm : (splitChar ',' signers).Perm (splitChar ',' signers')) {ids : List ℕ}
    (h : signCheck owners signers = .ok ids) : signCheck owners signers' = .ok ids := by
  obtain ⟨hnodup, hknown, hle, rfl⟩ := hs.signCheck_eq_ok.mp h
  refine hs.signCheck_eq_ok.mpr ⟨hperm.nodup_iff.mp hnodup, ?_, ?_, ?_⟩
  · exact fun l hl => hknown (hperm.mem_iff.mpr hl)
  · rwa [← (hperm.map _).sum_nat]
  · refine List.Perm.eq_of_pairwise (fun a b _ _ => le_antisymm)
      (List.pairwise_insertionSort _ _) (List.pairwise_insertionSort _ _) ?_
    exact (List.perm_insertionSort _ _).trans
      ((hperm.flatMap_right _).trans (List.perm_insertionSort _ _).symm)

theorem splitChar_joinComma {labels : List String} (hne : labels ≠ [])
    (hcomma : ∀ l ∈ labels, ',' ∉ l.toList) : splitChar ',' (joinComma labels) = labels := by
  rw [splitChar, joinComma, String.toList_ofList, List.splitOn_intercalate]
  · simp [List.map_map, Function.comp_def]
  · intro l hl
    obtain ⟨label, hlabel, rfl⟩ := List.mem_map.mp hl
    exact hcomma label hlabel
  · simpa using hne

end

end Bufi.Send
