import Mathlib.Algebra.GroupWithZero.Nat
import ServiceMap.Link.Tally
import ServiceMap.Proofs.FirstSeen

/-!
# Adding up calls

A tally is known by its pairs, in order, and by the counts under each. What is added to it shows in two ways: new pairs
come in where they first occur, and each pair gets the sum of what was added for it. So a tally that is added to another
one, pair by pair, comes to the same as everything it was made of, and the order of what is added decides about the
order of the pairs only.
-/

namespace ServiceMap

namespace Counts

@[simp] theorem plus_zero (a : Counts) : a.plus {} = a := rfl

@[simp] theorem zero_plus (a : Counts) : ({} : Counts).plus a = a := by
  simp [plus]

theorem plus_assoc (a b c : Counts) : (a.plus b).plus c = a.plus (b.plus c) := by
  simp [plus, Nat.add_assoc]

theorem plus_left_comm (a b c : Counts) : a.plus (b.plus c) = b.plus (a.plus c) := by
  simp [plus, Nat.add_left_comm]

/-- The sum of some counts. -/
def sum (l : List Counts) : Counts := l.foldr plus {}

@[simp] theorem sum_nil : sum [] = {} := rfl

@[simp] theorem sum_cons (a : Counts) (l : List Counts) : sum (a :: l) = a.plus (sum l) := rfl

/-- Calls and errors are added up apart. -/
theorem sum_eq (l : List Counts) : sum l = ⟨(l.map calls).sum, (l.map errors).sum⟩ := by
  induction l with
  | nil => rfl
  | cons a l ih => rw [sum_cons, ih, List.map_cons, List.map_cons, List.sum_cons, List.sum_cons, plus]

theorem sum_append (l l' : List Counts) : sum (l ++ l') = (sum l).plus (sum l') := by
  induction l with
  | nil => rw [List.nil_append, sum_nil, zero_plus]
  | cons a l ih => rw [List.cons_append, sum_cons, sum_cons, ih, plus_assoc]

theorem sum_perm {l l' : List Counts} (h : l.Perm l') : sum l = sum l' := by
  induction h with
  | nil => rfl
  | cons a _ ih => rw [sum_cons, sum_cons, ih]
  | swap a b l => rw [sum_cons, sum_cons, sum_cons, sum_cons, plus_left_comm]
  | trans _ _ ih ih' => exact ih.trans ih'

end Counts

/-- Counts for a pair of services. -/
abbrev Share := ServicePair × Counts

/-- What some shares add up to for a pair. -/
def Share.sumFor (pair : ServicePair) (l : List Share) : Counts :=
  Counts.sum ((l.filter (·.1 == pair)).map (·.2))

theorem Share.sumFor_cons (pair : ServicePair) (share : Share) (l : List Share) :
    sumFor pair (share :: l) = if share.1 = pair then share.2.plus (sumFor pair l) else sumFor pair l := by
  by_cases h : share.1 = pair
  · simp [sumFor, h]
  · simp [sumFor, h]

theorem Share.sumFor_append (pair : ServicePair) (l l' : List Share) :
    sumFor pair (l ++ l') = (sumFor pair l).plus (sumFor pair l') := by
  rw [sumFor, List.filter_append, List.map_append, Counts.sum_append]
  rfl

theorem Share.sumFor_perm {l l' : List Share} (h : l.Perm l') (pair : ServicePair) :
    sumFor pair l = sumFor pair l' :=
  Counts.sum_perm ((h.filter _).map _)

/-- Fewer shares add up to less. -/
theorem Share.sumFor_le_of_sublist {l l' : List Share} (h : l.Sublist l') (pair : ServicePair) :
    (sumFor pair l).calls ≤ (sumFor pair l').calls ∧ (sumFor pair l).errors ≤ (sumFor pair l').errors := by
  induction h with
  | slnil => exact ⟨Nat.le_refl _, Nat.le_refl _⟩
  | cons share _ ih =>
    rw [sumFor_cons pair share]
    split
    · exact ⟨Nat.le_trans ih.1 (Nat.le_add_left _ _), Nat.le_trans ih.2 (Nat.le_add_left _ _)⟩
    · exact ih
  | cons_cons share _ ih =>
    rw [sumFor_cons, sumFor_cons]
    split
    · exact ⟨Nat.add_le_add_left ih.1 _, Nat.add_le_add_left ih.2 _⟩
    · exact ih

/-- Where no share has more errors than calls, their sum has not, either. -/
theorem Share.errors_sumFor_le {l : List Share} (h : ∀ share ∈ l, share.2.errors ≤ share.2.calls) (pair : ServicePair) :
    (sumFor pair l).errors ≤ (sumFor pair l).calls := by
  induction l with
  | nil => exact Nat.le_refl _
  | cons share l ih =>
    obtain ⟨hshare, hrest⟩ := List.forall_mem_cons.mp h
    rw [sumFor_cons]
    split
    · exact Nat.add_le_add hshare (ih hrest)
    · exact ih hrest

theorem Share.calls_le_sumFor {share : Share} {l : List Share} (h : share ∈ l) :
    share.2.calls ≤ (sumFor share.1 l).calls := by
  have halone : sumFor share.1 [share] = share.2 := by rw [sumFor_cons, if_pos rfl]; rfl
  have hle := (sumFor_le_of_sublist (List.singleton_sublist.mpr h) share.1).1
  rwa [halone] at hle

namespace Tally

/-- The tally with some shares added. -/
def addAll (t : Tally) (l : List Share) : Tally := l.foldl (fun t share => t.add share.1 share.2) t

/-- The shares of a tally, one for each pair. -/
def shares (t : Tally) : List Share := t.counts.entries

/-- The pairs of a tally in the order in which they came up. -/
def pairs (t : Tally) : List ServicePair := t.counts.keys

/-- The counts under a pair. -/
def countsAt (t : Tally) (pair : ServicePair) : Counts := (t.counts.get? pair).getD {}

@[simp] theorem addAll_nil (t : Tally) : t.addAll [] = t := rfl

@[simp] theorem addAll_cons (t : Tally) (share : Share) (l : List Share) :
    t.addAll (share :: l) = (t.add share.1 share.2).addAll l := rfl

theorem addAll_append (t : Tally) (l l' : List Share) : t.addAll (l ++ l') = (t.addAll l).addAll l' :=
  List.foldl_append

@[simp] theorem pairs_empty : ({} : Tally).pairs = [] := rfl

@[simp] theorem countsAt_empty (pair : ServicePair) : ({} : Tally).countsAt pair = {} := rfl

@[simp] theorem map_fst_shares (t : Tally) : t.shares.map (·.1) = t.pairs := rfl

theorem pairs_addAll (t : Tally) (l : List Share) : (t.addAll l).pairs = withNew t.pairs (l.map (·.1)) := by
  induction l generalizing t with
  | nil => rfl
  | cons share l ih =>
    have hstep : (t.add share.1 share.2).pairs =
        if share.1 ∈ t.pairs then t.pairs else t.pairs ++ [share.1] := Table.keys_alter _ _ _
    rw [addAll_cons, ih, hstep, List.map_cons, withNew_cons]

theorem nodup_pairs_addAll {t : Tally} (h : t.pairs.Nodup) (l : List Share) : (t.addAll l).pairs.Nodup :=
  pairs_addAll t l ▸ nodup_withNew h _

theorem nodup_pairs_addAll_empty (l : List Share) : (({} : Tally).addAll l).pairs.Nodup :=
  nodup_pairs_addAll (t := {}) List.nodup_nil l

theorem countsAt_add (t : Tally) (pair : ServicePair) (counts : Counts) (pair' : ServicePair) :
    (t.add pair counts).countsAt pair' = if pair = pair' then (t.countsAt pair').plus counts else t.countsAt pair' := by
  rw [countsAt, countsAt, add]
  split
  · rename_i h
    rw [h, Table.get?_alter_self, Option.getD_some]
  · rename_i h
    rw [Table.get?_alter_of_ne h]

/-- A pair gets the sum of what was added for it. -/
theorem countsAt_addAll (t : Tally) (l : List Share) (pair : ServicePair) :
    (t.addAll l).countsAt pair = (t.countsAt pair).plus (Share.sumFor pair l) := by
  induction l generalizing t with
  | nil => rfl
  | cons share l ih =>
    rw [addAll_cons, ih, countsAt_add, Share.sumFor_cons]
    split
    · rw [Counts.plus_assoc]
    · rfl

/-- The counts under a pair never become less. -/
theorem countsAt_le_addAll (t : Tally) (l : List Share) (pair : ServicePair) :
    (t.countsAt pair).calls ≤ ((t.addAll l).countsAt pair).calls ∧
      (t.countsAt pair).errors ≤ ((t.addAll l).countsAt pair).errors := by
  rw [countsAt_addAll]
  exact ⟨Nat.le_add_right _ _, Nat.le_add_right _ _⟩

/-- A tally is known by its pairs and their counts. -/
theorem shares_eq {t : Tally} (h : t.pairs.Nodup) : t.shares = t.pairs.map fun pair => (pair, t.countsAt pair) :=
  Table.entries_eq_map_keys h {}

theorem ext_countsAt {t t' : Tally} (h : t.pairs.Nodup) (hpairs : t.pairs = t'.pairs)
    (hcounts : ∀ pair, t.countsAt pair = t'.countsAt pair) : t = t' := by
  have hshares : t.shares = t'.shares := by
    rw [shares_eq h, shares_eq (hpairs ▸ h), hpairs]
    exact List.map_congr_left fun pair _ => by rw [hcounts]
  obtain ⟨⟨entries⟩⟩ := t
  obtain ⟨⟨entries'⟩⟩ := t'
  exact congrArg (fun l => (⟨⟨l⟩⟩ : Tally)) hshares

theorem sumFor_shares {t : Tally} (h : t.pairs.Nodup) (pair : ServicePair) :
    Share.sumFor pair t.shares = t.countsAt pair := by
  obtain ⟨⟨entries⟩⟩ := t
  induction entries with
  | nil => rfl
  | cons share rest ih =>
    obtain ⟨first, counts⟩ := share
    obtain ⟨hfirst, hrest⟩ := List.nodup_cons.mp h
    have hcounts : (⟨⟨(first, counts) :: rest⟩⟩ : Tally).countsAt pair =
        if first = pair then counts else (⟨⟨rest⟩⟩ : Tally).countsAt pair := by
      simp only [countsAt, Table.get?_cons, beq_iff_eq]
      split
      · rfl
      · rfl
    have hsum := ih hrest
    simp only [shares] at hsum ⊢
    rw [Share.sumFor_cons, hcounts, hsum]
    split
    · rename_i hpair
      have hnone : (⟨⟨rest⟩⟩ : Tally).countsAt pair = {} := by
        rw [countsAt, Table.get?_eq_none_iff.mpr (hpair ▸ hfirst), Option.getD_none]
      rw [hnone, Counts.plus_zero]
    · rfl

/-- What shares add up to: a share for each pair among them. -/
theorem mem_shares_addAll {l : List Share} {share : Share} : share ∈ (({} : Tally).addAll l).shares ↔
    share.1 ∈ l.map (·.1) ∧ share.2 = Share.sumFor share.1 l := by
  rw [shares_eq (nodup_pairs_addAll_empty l), pairs_addAll, List.mem_map]
  simp only [mem_withNew, pairs_empty, List.not_mem_nil, false_or, countsAt_addAll, countsAt_empty, Counts.zero_plus]
  constructor
  · rintro ⟨pair, hpair, rfl⟩
    exact ⟨hpair, rfl⟩
  · rintro ⟨hpair, hcounts⟩
    exact ⟨share.1, hpair, by rw [← hcounts]⟩

/-- Adding a tally, pair by pair, comes to the same as adding all that it is made of. -/
theorem addAll_shares {t : Tally} (h : t.pairs.Nodup) (l : List Share) :
    t.addAll (({} : Tally).addAll l).shares = t.addAll l := by
  refine ext_countsAt (nodup_pairs_addAll h _) ?_ fun pair => ?_
  · rw [pairs_addAll, pairs_addAll, map_fst_shares, pairs_addAll, pairs_empty, withNew_withNew_nil]
  · rw [countsAt_addAll, countsAt_addAll, sumFor_shares (nodup_pairs_addAll_empty l), countsAt_addAll, countsAt_empty,
      Counts.zero_plus]

/-- The order of what is added decides about the order of the pairs only. -/
theorem shares_addAll_perm {l l' : List Share} (h : l.Perm l') :
    (({} : Tally).addAll l).shares.Perm (({} : Tally).addAll l').shares := by
  have hpairs : (({} : Tally).addAll l).pairs.Perm (({} : Tally).addAll l').pairs := by
    rw [pairs_addAll, pairs_addAll]
    exact withNew_perm (h.map _)
  have hcounts : ∀ pair, (({} : Tally).addAll l).countsAt pair = (({} : Tally).addAll l').countsAt pair := by
    intro pair
    rw [countsAt_addAll, countsAt_addAll, Share.sumFor_perm h]
  rw [shares_eq (nodup_pairs_addAll_empty l), shares_eq (nodup_pairs_addAll_empty l')]
  simp only [hcounts]
  exact hpairs.map _

/-- All calls in a tally, whatever their pair. -/
def totalCalls (t : Tally) : Nat := (t.shares.map (·.2.calls)).sum

theorem totalCalls_add (t : Tally) (pair : ServicePair) (counts : Counts) :
    (t.add pair counts).totalCalls = t.totalCalls + counts.calls := by
  obtain ⟨⟨entries⟩⟩ := t
  induction entries with
  | nil => simp [totalCalls, shares, add, Table.alter, Table.alterEntries]
  | cons entry rest ih =>
    simp only [totalCalls, shares, add, Table.alter] at ih
    by_cases h : entry.1 = pair
    · simp [totalCalls, shares, add, Table.alter, Table.alterEntries, h, Counts.plus, Nat.add_right_comm]
    · simp [totalCalls, shares, add, Table.alter, Table.alterEntries, h, ih, Nat.add_assoc]

theorem totalCalls_addAll (t : Tally) (l : List Share) :
    (t.addAll l).totalCalls = t.totalCalls + (l.map (·.2.calls)).sum := by
  induction l generalizing t with
  | nil => rfl
  | cons share l ih => rw [addAll_cons, ih, totalCalls_add, List.map_cons, List.sum_cons, Nat.add_assoc]

end Tally

end ServiceMap
