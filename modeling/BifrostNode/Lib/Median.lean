import Mathlib.Data.List.GetD
import Mathlib.Data.List.Sort
import Mathlib.Data.Finset.Card

/-!
# The middle of a list

`upperMedian` is the entry in the middle of the sorted list, the upper one of the two where the length is
even.

**Halves.**  More than half of the entries are at most the middle, and at least half are at least it
(`half_le_upperMedian`, `half_upperMedian_le`).

**Faults.**  Entries come from distinct sources.  Where fewer than half of the sources are at fault, a
sound one has an entry on either side of the middle (`exists_le_upperMedian`,
`exists_upperMedian_le`), whatever the others say.
-/

namespace Median

variable {α : Type*} [LinearOrder α] {l : List α} {d : α}

/-- The entry in the middle of the sorted list. -/
def upperMedian (l : List α) (d : α) : α := (l.insertionSort (· ≤ ·)).getD (l.length / 2) d

/-! ## Halves -/

lemma upperMedian_eq_getElem (h : l.length / 2 < (l.insertionSort (· ≤ ·)).length) :
    upperMedian l d = (l.insertionSort (· ≤ ·))[l.length / 2] := by
  rw [upperMedian, List.getD_eq_getElem _ _ h]

/-- The entries of the sorted list up to the middle are at most the middle. -/
lemma half_le_upperMedian (h : 0 < l.length) :
    l.length < 2 * l.countP (· ≤ upperMedian l d) := by
  have hlen : (l.insertionSort (· ≤ ·)).length = l.length := List.length_insertionSort ..
  have hlt : l.length / 2 < (l.insertionSort (· ≤ ·)).length := by omega
  have hsorted := List.pairwise_iff_getElem.mp (List.pairwise_insertionSort (· ≤ ·) l)
  have hall : ((l.insertionSort (· ≤ ·)).take (l.length / 2 + 1)).countP (· ≤ upperMedian l d) =
      ((l.insertionSort (· ≤ ·)).take (l.length / 2 + 1)).length := by
    refine List.countP_eq_length.mpr fun a ha => ?_
    obtain ⟨i, hi, rfl⟩ := List.getElem_of_mem ha
    rw [List.length_take] at hi
    rw [List.getElem_take, upperMedian_eq_getElem hlt, decide_eq_true_eq]
    rcases Nat.lt_or_ge i (l.length / 2) with hi' | hi'
    · exact hsorted i _ (by omega) hlt hi'
    · have hi'' : i = l.length / 2 := by omega
      subst hi''
      exact le_rfl
  have hsub := (List.take_sublist (l.length / 2 + 1) (l.insertionSort (· ≤ ·))).countP_le
    (p := (· ≤ upperMedian l d))
  rw [hall, List.length_take, (List.perm_insertionSort (· ≤ ·) l).countP_eq] at hsub
  omega

/-- The entries of the sorted list from the middle on are at least the middle. -/
lemma half_upperMedian_le : l.length ≤ 2 * l.countP (upperMedian l d ≤ ·) := by
  rcases Nat.eq_zero_or_pos l.length with h | h
  · omega
  have hlen : (l.insertionSort (· ≤ ·)).length = l.length := List.length_insertionSort ..
  have hlt : l.length / 2 < (l.insertionSort (· ≤ ·)).length := by omega
  have hsorted := List.pairwise_iff_getElem.mp (List.pairwise_insertionSort (· ≤ ·) l)
  have hall : ((l.insertionSort (· ≤ ·)).drop (l.length / 2)).countP (upperMedian l d ≤ ·) =
      ((l.insertionSort (· ≤ ·)).drop (l.length / 2)).length := by
    refine List.countP_eq_length.mpr fun a ha => ?_
    obtain ⟨i, hi, rfl⟩ := List.getElem_of_mem ha
    rw [List.length_drop] at hi
    rw [List.getElem_drop, upperMedian_eq_getElem hlt, decide_eq_true_eq]
    rcases Nat.eq_zero_or_pos i with rfl | hi'
    · exact le_rfl
    · exact hsorted _ _ hlt (by omega) (by omega)
  have hsub := (List.drop_sublist (l.length / 2) (l.insertionSort (· ≤ ·))).countP_le
    (p := (upperMedian l d ≤ ·))
  rw [hall, List.length_drop, (List.perm_insertionSort (· ≤ ·) l).countP_eq] at hsub
  omega

/-! ## Faults -/

section Faults

variable {ι κ : Type*} [DecidableEq κ] {entries : List ι} {source : ι → κ} {f : ι → α}
  {faulty : Finset κ}

omit [LinearOrder α] in
/-- More entries of a kind than sources at fault: one of the kind has a sound source. -/
lemma exists_sound (hsources : (entries.map source).Nodup) {p : ι → Bool}
    (h : faulty.card < entries.countP p) : ∃ e ∈ entries, source e ∉ faulty ∧ p e = true := by
  by_contra hnone
  push Not at hnone
  have hnodup : ((entries.filter p).map source).Nodup :=
    hsources.sublist (List.filter_sublist.map source)
  have hsub : ((entries.filter p).map source).toFinset ⊆ faulty := by
    intro k hk
    simp only [List.mem_toFinset, List.mem_map, List.mem_filter] at hk
    obtain ⟨e, ⟨he, hp⟩, rfl⟩ := hk
    by_contra hsound
    exact hnone e he hsound hp
  have hcard := Finset.card_le_card hsub
  rw [List.toFinset_card_of_nodup hnodup, List.length_map, ← List.countP_eq_length_filter] at hcard
  omega

/-- **A sound source is at most the middle**, where fewer than half are at fault. -/
theorem exists_le_upperMedian (hsources : (entries.map source).Nodup)
    (h : 2 * faulty.card < entries.length) :
    ∃ e ∈ entries, source e ∉ faulty ∧ f e ≤ upperMedian (entries.map f) d := by
  have hhalf := half_le_upperMedian (l := entries.map f) (d := d)
    (by rw [List.length_map]; omega)
  rw [List.countP_map, List.length_map] at hhalf
  have hmore : faulty.card <
      entries.countP ((fun a => decide (a ≤ upperMedian (entries.map f) d)) ∘ f) := by
    omega
  obtain ⟨e, he, hsound, hp⟩ := exists_sound hsources hmore
  exact ⟨e, he, hsound, of_decide_eq_true hp⟩

/-- **A sound source is at least the middle**, where fewer than half are at fault. -/
theorem exists_upperMedian_le (hsources : (entries.map source).Nodup)
    (h : 2 * faulty.card < entries.length) :
    ∃ e ∈ entries, source e ∉ faulty ∧ upperMedian (entries.map f) d ≤ f e := by
  have hhalf := half_upperMedian_le (l := entries.map f) (d := d)
  rw [List.countP_map, List.length_map] at hhalf
  have hmore : faulty.card <
      entries.countP ((fun a => decide (upperMedian (entries.map f) d ≤ a)) ∘ f) := by
    omega
  obtain ⟨e, he, hsound, hp⟩ := exists_sound hsources hmore
  exact ⟨e, he, hsound, of_decide_eq_true hp⟩

end Faults

end Median
