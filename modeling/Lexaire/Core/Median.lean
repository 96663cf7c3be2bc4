import Mathlib.Algebra.Order.Field.Basic
import Mathlib.Data.Finset.Max
import Mathlib.Data.Multiset.Sort
import Mathlib.Tactic.Linarith

/-! Medians of finite multisets: the middle of a sorted copy or the mean of the two in the
middle, against what makes a number a median. -/
namespace Median

/-- The laws of the order that sorting asks for. -/
local instance isTrans_le {K : Type} [LinearOrder K] : IsTrans K (· ≤ ·) := ⟨fun _ _ _ => le_trans⟩

local instance antisymm_le {K : Type} [LinearOrder K] : Std.Antisymm fun x y : K => x ≤ y :=
  ⟨fun _ _ => le_antisymm⟩

/-- No more than half of the samples lie below, and no more than half above. -/
structure IsMedian {K : Type} [LinearOrder K] (m : K) (samples : Multiset K) : Prop where
  below : 2 * samples.countP (· < m) ≤ samples.card
  above : 2 * samples.countP (m < ·) ≤ samples.card

section
variable {K : Type} [LinearOrder K] {m : K} {samples : Multiset K}

/-- A median lies between two samples. -/
theorem IsMedian.exists_le (median : IsMedian m samples) (some : samples ≠ 0) :
    ∃ x ∈ samples, x ≤ m := by
  by_contra all_above
  push Not at all_above
  have half := median.above
  rw [Multiset.countP_eq_card.mpr all_above] at half
  have positive := Multiset.card_pos.mpr some
  omega

theorem IsMedian.exists_ge (median : IsMedian m samples) (some : samples ≠ 0) :
    ∃ x ∈ samples, m ≤ x := by
  by_contra all_below
  push Not at all_below
  have half := median.below
  rw [Multiset.countP_eq_card.mpr all_below] at half
  have positive := Multiset.card_pos.mpr some
  omega

/-- A median lies between the least sample and the greatest. -/
theorem IsMedian.between (median : IsMedian m samples) (some : samples ≠ 0) :
    ∃ least ∈ samples, ∃ greatest ∈ samples, (∀ x ∈ samples, least ≤ x ∧ x ≤ greatest) ∧
      least ≤ m ∧ m ≤ greatest := by
  obtain ⟨x, below, le⟩ := median.exists_le some
  obtain ⟨y, above, ge⟩ := median.exists_ge some
  have inhabited : samples.toFinset.Nonempty := ⟨x, Multiset.mem_toFinset.mpr below⟩
  obtain ⟨least, first, minimal⟩ := samples.toFinset.exists_min_image id inhabited
  obtain ⟨greatest, last, maximal⟩ := samples.toFinset.exists_max_image id inhabited
  simp only [Multiset.mem_toFinset, id_eq] at first minimal last maximal
  exact ⟨least, first, greatest, last, fun x member => ⟨minimal x member, maximal x member⟩,
    (minimal x below).trans le, ge.trans (maximal y above)⟩

/-! ## Counting in a sorted list -/

variable {l : List K} {k : Nat}

theorem countP_lt_le (rest : ∀ x ∈ l.drop k, m ≤ x) : l.countP (· < m) ≤ k := by
  have none : (l.drop k).countP (· < m) = 0 := by
    rw [List.countP_eq_zero]
    intro x member
    simpa using rest x member
  rw [← List.take_append_drop k l, List.countP_append, none, Nat.add_zero]
  exact List.countP_le_length.trans (List.length_take_le k l)

theorem countP_gt_le (first : ∀ x ∈ l.take k, x ≤ m) : l.countP (m < ·) ≤ l.length - k := by
  have none : (l.take k).countP (m < ·) = 0 := by
    rw [List.countP_eq_zero]
    intro x member
    simpa using first x member
  rw [← List.length_drop]
  conv_lhs => rw [← List.take_append_drop k l, List.countP_append, none, Nat.zero_add]
  exact List.countP_le_length

theorem ge_of_mem_drop (sorted : l.SortedLE) (here : k < l.length) :
    ∀ x ∈ l.drop k, l[k] ≤ x := by
  intro x member
  obtain ⟨i, within, rfl⟩ := List.mem_drop_iff_getElem.mp member
  exact sorted.getElem_le_getElem_of_le (Nat.le_add_right k i)

theorem le_of_mem_take (sorted : l.SortedLE) (here : k < l.length) :
    ∀ x ∈ l.take (k + 1), x ≤ l[k] := by
  intro x member
  obtain ⟨i, within, rfl⟩ := List.mem_take_iff_getElem.mp member
  exact sorted.getElem_le_getElem_of_le (by omega)

theorem isMedian_of_sort (below : 2 * samples.sort.countP (· < m) ≤ samples.sort.length)
    (above : 2 * samples.sort.countP (m < ·) ≤ samples.sort.length) : IsMedian m samples := by
  have count (p : K → Prop) [DecidablePred p] :
      samples.countP p = samples.sort.countP p := by
    conv_lhs => rw [← samples.sort_eq (· ≤ ·)]
    exact Multiset.coe_countP p _
  rw [Multiset.length_sort] at below above
  constructor
  · rw [count]
    exact below
  · rw [count]
    exact above
end

/-! ## The median -/

variable {K : Type} [Field K] [LinearOrder K]

/-- Nothing has no median. -/
def median? (samples : Multiset K) : Option K :=
  let sorted := samples.sort
  if sorted.length % 2 = 1 then sorted[sorted.length / 2]?
  else do
    let lower ← sorted[sorted.length / 2 - 1]?
    let upper ← sorted[sorted.length / 2]?
    return (lower + upper) / 2

@[simp] theorem median?_zero : median? (0 : Multiset K) = none := by simp [median?]

theorem exists_median {samples : Multiset K} [IsStrictOrderedRing K] (some : samples ≠ 0) :
    ∃ m, median? samples = .some m ∧ IsMedian m samples := by
  have sorted : samples.sort.SortedLE := (samples.pairwise_sort (· ≤ ·)).sortedLE
  have positive : 0 < samples.sort.length := by
    rw [Multiset.length_sort]
    exact Multiset.card_pos.mpr some
  unfold median?
  dsimp only
  generalize ordered : samples.sort = l at sorted positive
  have upper : l.length / 2 < l.length := by omega
  split
  · next odd =>
    refine ⟨l[l.length / 2], List.getElem?_eq_getElem upper, ?_⟩
    have below := countP_lt_le (ge_of_mem_drop sorted upper)
    have above := countP_gt_le (le_of_mem_take sorted upper)
    apply isMedian_of_sort
    · rw [ordered]
      omega
    · rw [ordered]
      omega
  · next even =>
    have lower : l.length / 2 - 1 < l.length := by omega
    have order : l[l.length / 2 - 1] ≤ l[l.length / 2] :=
      sorted.getElem_le_getElem_of_le (Nat.sub_le _ _)
    have place : l.length / 2 - 1 + 1 = l.length / 2 := by omega
    have first := le_of_mem_take sorted lower
    rw [place] at first
    refine ⟨(l[l.length / 2 - 1] + l[l.length / 2]) / 2, ?_, ?_⟩
    · rw [List.getElem?_eq_getElem lower, List.getElem?_eq_getElem upper]
      rfl
    · have below := @countP_lt_le K _ ((l[l.length / 2 - 1] + l[l.length / 2]) / 2) l _
        fun x member => by linarith [ge_of_mem_drop sorted upper x member]
      have above := @countP_gt_le K _ ((l[l.length / 2 - 1] + l[l.length / 2]) / 2) l _
        fun x member => by linarith [first x member]
      apply isMedian_of_sort
      · rw [ordered]
        omega
      · rw [ordered]
        omega

end Median
