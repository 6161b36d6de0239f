import Mathlib.Algebra.GroupWithZero.Nat
import Mathlib.Algebra.Order.BigOperators.Group.List
import Mathlib.Data.List.TakeWhile

/-!
# Amounts over time

A ledger lists amounts with the time each was spent; an entry may restart the
count.  `Capped limit`: from one restart up to the next no more than the limit
is spent.  `Paced interval`: restarts are an interval apart.  A stretch of time
that is shorter than the interval sees at most one restart, so that at most
twice the limit is spent in it: `total_window_le`.

`WithinBudget` is what a limit with a refresh interval promises; an interval of
zero stands for a limit that is never refreshed.

A meter is a number, what has been used since the last restart.  `Counted`
couples it with the ledger; `Counted.add` and `Counted.restart` are its two
moves.

`Covers` compares two ledgers over any times.
-/

namespace Bufi.Evm

structure Entry where
  time : ℕ
  amount : ℕ
  restart : Bool
  deriving DecidableEq

def total (l : List Entry) : ℕ := (l.map Entry.amount).sum

/-- The entries of a stretch of time, both ends included. -/
def window (first last : ℕ) (l : List Entry) : List Entry :=
  l.filter (fun e => first ≤ e.time ∧ e.time ≤ last)

/-- No stretch without a restart, but for its first entry, exceeds the limit. -/
def Capped (limit : ℕ) (l : List Entry) : Prop :=
  ∀ xs ys zs, l = xs ++ ys ++ zs → (∀ e ∈ ys.tail, e.restart = false) → total ys ≤ limit

/-- Any two restarts are an interval apart. -/
def Paced (interval : ℕ) (l : List Entry) : Prop :=
  l.Pairwise (fun a b => a.restart = true → b.restart = true → a.time + interval ≤ b.time)

/-- The entries are in the order of their times. -/
def InOrder (l : List Entry) : Prop := l.Pairwise (fun a b => a.time ≤ b.time)

/-- What has been spent since the last restart. -/
def carried (l : List Entry) : ℕ :=
  l.foldl (fun used e => if e.restart then e.amount else used + e.amount) 0

@[simp] theorem total_nil : total [] = 0 := rfl

@[simp] theorem total_cons (e : Entry) (l : List Entry) : total (e :: l) = e.amount + total l :=
  List.sum_cons

@[simp] theorem total_append (l l' : List Entry) : total (l ++ l') = total l + total l' := by
  simp [total]

theorem carried_concat (l : List Entry) (e : Entry) :
    carried (l ++ [e]) = if e.restart then e.amount else carried l + e.amount := by
  rw [carried, List.foldl_append]
  rfl

/-! ### Stretches of time -/

theorem Capped.of_infix {limit : ℕ} {l m : List Entry} (h : Capped limit l) (hm : m <:+: l) :
    Capped limit m := by
  obtain ⟨s, t, rfl⟩ := hm
  rintro xs ys zs rfl hys
  refine h (s ++ xs) ys (zs ++ t) ?_ hys
  simp only [List.append_assoc]

/-- Without a restart everything is one stretch. -/
theorem Capped.total_le {limit : ℕ} {l : List Entry} (h : Capped limit l)
    (hl : ∀ e ∈ l, e.restart = false) : total l ≤ limit :=
  h [] l [] (by simp) (fun e he => hl e (List.mem_of_mem_tail he))

/-- Two stretches are left if a single restart is among the entries. -/
theorem Capped.total_le_twice {limit : ℕ} {l : List Entry} (h : Capped limit l)
    (hl : l.Pairwise (fun a b => ¬ (a.restart = true ∧ b.restart = true))) :
    total l ≤ 2 * limit := by
  have hsplit : l = l.takeWhile (fun e => !e.restart) ++ l.dropWhile (fun e => !e.restart) :=
    List.takeWhile_append_dropWhile.symm
  have hbefore : total (l.takeWhile (fun e => !e.restart)) ≤ limit := by
    refine h [] _ (l.dropWhile (fun e => !e.restart)) hsplit ?_
    intro e he
    simpa using List.mem_takeWhile_imp (List.mem_of_mem_tail he)
  have hafter : total (l.dropWhile (fun e => !e.restart)) ≤ limit := by
    refine h (l.takeWhile (fun e => !e.restart)) _ [] (by rw [List.append_nil]; exact hsplit) ?_
    cases hd : l.dropWhile (fun e => !e.restart) with
    | nil => simp
    | cons first rest =>
      have hfirst : first.restart = true := by
        have hne : l.dropWhile (fun e => !e.restart) ≠ [] := by simp [hd]
        have hnot := List.head_dropWhile_not (fun e : Entry => !e.restart) hne
        simpa [hd] using hnot
      rw [hsplit, hd] at hl
      have hpair := (List.pairwise_cons.mp (List.pairwise_append.mp hl).2.1).1
      intro e he
      exact Bool.eq_false_iff.mpr (fun hc => hpair e he ⟨hfirst, hc⟩)
  rw [hsplit, total_append]
  omega

theorem InOrder.prefix_filter {l : List Entry} (h : InOrder l) (last : ℕ) :
    l.filter (fun e => e.time ≤ last) <+: l := by
  induction l with
  | nil => exact List.prefix_rfl
  | cons e l ih =>
    obtain ⟨hle, hl⟩ := List.pairwise_cons.mp h
    by_cases he : e.time ≤ last
    · rw [List.filter_cons_of_pos (by simpa using he), List.prefix_cons_inj]
      exact ih hl
    · have hnil : (e :: l).filter (fun e => e.time ≤ last) = [] := by
        rw [List.filter_eq_nil_iff]
        intro x hx
        rcases List.mem_cons.mp hx with rfl | hx
        · simpa using he
        · have hlex := hle x hx
          simp only [decide_eq_true_eq]
          omega
      rw [hnil]
      exact List.nil_prefix

theorem InOrder.suffix_filter {l : List Entry} (h : InOrder l) (first : ℕ) :
    l.filter (fun e => first ≤ e.time) <:+ l := by
  induction l with
  | nil => exact List.suffix_rfl
  | cons e l ih =>
    obtain ⟨hle, hl⟩ := List.pairwise_cons.mp h
    by_cases he : first ≤ e.time
    · have hall : (e :: l).filter (fun e => first ≤ e.time) = e :: l := by
        rw [List.filter_eq_self]
        intro x hx
        rcases List.mem_cons.mp hx with rfl | hx
        · simpa using he
        · have hlex := hle x hx
          simp only [decide_eq_true_eq]
          omega
      exact hall.symm ▸ List.suffix_rfl
    · rw [List.filter_cons_of_neg (by simpa using he)]
      exact (ih hl).trans (List.suffix_cons e l)

/-- The entries of a stretch of time are next to each other. -/
theorem InOrder.infix_window {l : List Entry} (h : InOrder l) (first last : ℕ) :
    window first last l <:+: l := by
  have hsuffix := h.suffix_filter first
  have horder : InOrder (l.filter (fun e => first ≤ e.time)) := List.Pairwise.filter _ h
  have heq : window first last l =
      (l.filter (fun e => first ≤ e.time)).filter (fun e => e.time ≤ last) := by
    rw [List.filter_filter, window]
    refine List.filter_congr ?_
    intro e _
    simp [Bool.and_comm]
  rw [heq]
  exact (horder.prefix_filter last).isInfix.trans hsuffix.isInfix

/-- **In less than an interval at most twice the limit is spent.** -/
theorem total_window_le {limit interval : ℕ} {l : List Entry} (hcapped : Capped limit l)
    (hpaced : Paced interval l) (horder : InOrder l) {first last : ℕ}
    (hshort : last < first + interval) : total (window first last l) ≤ 2 * limit := by
  refine (hcapped.of_infix (horder.infix_window first last)).total_le_twice ?_
  have hpair : (window first last l).Pairwise (fun a b => a.restart = true → b.restart = true →
      a.time + interval ≤ b.time) := List.Pairwise.filter _ hpaced
  refine List.Pairwise.imp_of_mem ?_ hpair
  rintro a b ha hb hab ⟨har, hbr⟩
  have happart := hab har hbr
  simp only [window, List.mem_filter, decide_eq_true_eq] at ha hb
  omega

/-- Never more than the limit, or restarts an interval apart, the limit in
between, and twice the limit in any shorter time. -/
def WithinBudget (limit interval : ℕ) (l : List Entry) : Prop :=
  (interval = 0 → total l ≤ limit) ∧
    (0 < interval → Paced interval l ∧ Capped limit l ∧
      ∀ first last, last < first + interval → total (window first last l) ≤ 2 * limit)

/-! ### Meters -/

theorem foldl_eq_add_total {ys : List Entry} (hys : ∀ e ∈ ys, e.restart = false) (used : ℕ) :
    ys.foldl (fun used e => if e.restart then e.amount else used + e.amount) used =
      used + total ys := by
  induction ys generalizing used with
  | nil => rfl
  | cons y ys ih =>
    have hy := hys y (List.mem_cons_self ..)
    rw [List.foldl_cons, ih (fun e he => hys e (List.mem_cons_of_mem _ he)), hy, total_cons,
      if_neg Bool.false_ne_true, Nat.add_assoc]

/-- What a stretch at the end spends has been carried. -/
theorem total_le_carried {xs ys : List Entry} (hys : ∀ e ∈ ys.tail, e.restart = false) :
    total ys ≤ carried (xs ++ ys) := by
  cases ys with
  | nil => exact Nat.zero_le _
  | cons y ys =>
    rw [List.tail_cons] at hys
    rw [carried, List.foldl_append, List.foldl_cons, foldl_eq_add_total hys, total_cons]
    split
    · exact Nat.le_refl _
    · exact Nat.add_le_add_right (Nat.le_add_left _ _) _

theorem Capped.concat {limit : ℕ} {l : List Entry} {e : Entry} (h : Capped limit l)
    (he : carried (l ++ [e]) ≤ limit) : Capped limit (l ++ [e]) := by
  intro xs ys zs hsplit hys
  rcases List.eq_nil_or_concat zs with rfl | ⟨zs', z, rfl⟩
  · rw [List.append_nil] at hsplit
    rw [hsplit] at he
    exact (total_le_carried hys).trans he
  · rw [List.concat_eq_append, ← List.append_assoc] at hsplit
    exact h xs ys zs' (List.append_inj_left' hsplit rfl) hys

/-- The meter has counted at least what the ledger carries, and the ledger is
within the limit. -/
structure Counted (limit interval used : ℕ) (l : List Entry) : Prop where
  carried_le : carried l ≤ used
  capped : Capped limit l
  paced : Paced interval l
  inOrder : InOrder l

namespace Counted

variable {limit interval used : ℕ} {l : List Entry}

theorem nil (limit interval used : ℕ) : Counted limit interval used [] where
  carried_le := Nat.zero_le _
  capped xs ys zs h _ := by
    have hys : ys = [] := by simp_all
    rw [hys]
    exact Nat.zero_le _
  paced := .nil
  inOrder := .nil

theorem mono (h : Counted limit interval used l) {used' : ℕ} (hle : used ≤ used') :
    Counted limit interval used' l :=
  ⟨h.carried_le.trans hle, h.capped, h.paced, h.inOrder⟩

/-- A use within the limit. -/
theorem add (h : Counted limit interval used l) {time amount : ℕ}
    (htime : ∀ e ∈ l, e.time ≤ time) (hle : used + amount ≤ limit) :
    Counted limit interval (used + amount) (l ++ [⟨time, amount, false⟩]) := by
  have hcarried : carried (l ++ [⟨time, amount, false⟩]) ≤ used + amount := by
    rw [carried_concat, if_neg Bool.false_ne_true]
    exact Nat.add_le_add_right h.carried_le amount
  refine ⟨hcarried, h.capped.concat (hcarried.trans hle), ?_, ?_⟩
  · refine List.pairwise_append.mpr ⟨h.paced, List.pairwise_singleton _ _, ?_⟩
    intro a _ b hb _ hbr
    rw [List.mem_singleton.mp hb] at hbr
    exact absurd hbr Bool.false_ne_true
  · refine List.pairwise_append.mpr ⟨h.inOrder, List.pairwise_singleton _ _, ?_⟩
    intro a ha b hb
    rw [List.mem_singleton.mp hb]
    exact htime a ha

/-- A use that starts the count anew, an interval after every restart so far. -/
theorem restart (h : Counted limit interval used l) {time amount : ℕ}
    (htime : ∀ e ∈ l, e.time ≤ time)
    (hpace : ∀ e ∈ l, e.restart = true → e.time + interval ≤ time) (hle : amount ≤ limit) :
    Counted limit interval amount (l ++ [⟨time, amount, true⟩]) := by
  have hcarried : carried (l ++ [⟨time, amount, true⟩]) ≤ amount := by
    rw [carried_concat, if_pos rfl]
  refine ⟨hcarried, h.capped.concat (hcarried.trans hle), ?_, ?_⟩
  · refine List.pairwise_append.mpr ⟨h.paced, List.pairwise_singleton _ _, ?_⟩
    intro a ha b hb har _
    rw [List.mem_singleton.mp hb]
    exact hpace a ha har
  · refine List.pairwise_append.mpr ⟨h.inOrder, List.pairwise_singleton _ _, ?_⟩
    intro a ha b hb
    rw [List.mem_singleton.mp hb]
    exact htime a ha

theorem withinBudget (h : Counted limit interval used l)
    (hnever : interval = 0 → ∀ e ∈ l, e.restart = false) : WithinBudget limit interval l := by
  refine ⟨fun hzero => h.capped.total_le (hnever hzero), fun _ => ⟨h.paced, h.capped, ?_⟩⟩
  intro first last hshort
  exact total_window_le h.capped h.paced h.inOrder hshort

end Counted

/-! ### Two ledgers -/

/-- At any times, no more is in the second ledger than in the first. -/
def Covers (l p : List Entry) : Prop :=
  ∀ f : ℕ → Bool, total (p.filter (fun e => f e.time)) ≤ total (l.filter (fun e => f e.time))

namespace Covers

variable {l p l' p' : List Entry}

theorem nil : Covers [] [] := fun _ => le_rfl

/-- Entries of one time are added to both. -/
theorem append (h : Covers l p) {time : ℕ} (hl : ∀ e ∈ l', e.time = time)
    (hp : ∀ e ∈ p', e.time = time) (hle : total p' ≤ total l') : Covers (l ++ l') (p ++ p') := by
  intro f
  have hsame : ∀ m : List Entry, (∀ e ∈ m, e.time = time) →
      m.filter (fun e => f e.time) = if f time then m else [] := by
    intro m hm
    split
    · rename_i ht
      exact List.filter_eq_self.mpr (fun e he => by rw [hm e he, ht])
    · rename_i ht
      exact List.filter_eq_nil_iff.mpr (fun e he => by rw [hm e he]; exact ht)
  rw [List.filter_append, List.filter_append, total_append, total_append, hsame l' hl, hsame p' hp]
  refine Nat.add_le_add (h f) ?_
  split
  · exact hle
  · exact le_rfl

theorem total_le (h : Covers l p) : total p ≤ total l := by
  have hall := h (fun _ => true)
  rwa [List.filter_true, List.filter_true] at hall

theorem window_le (h : Covers l p) (first last : ℕ) :
    total (window first last p) ≤ total (window first last l) :=
  h (fun t => decide (first ≤ t ∧ t ≤ last))

end Covers

end Bufi.Evm
