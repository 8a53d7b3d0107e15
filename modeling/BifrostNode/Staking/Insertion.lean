import BifrostNode.Lib.Words
import BifrostNode.Staking.Ledger

/-!
# Sorted insertion is first come, first served

`insert_sorted_greatest_to_least` looks its place up with the standard library's binary search,
whose contract leaves open which of several equal amounts it stops at.

**Any outcome.**  `insertSortedAt` is the function for a given outcome of the search, with the
saturating `u128` addition of the source for the cached total.  For the loop of the library's own
search, and as long as the total fits, it is the function the rest of the model uses
(`insertSortedAt_binarySearchBy`).

**Stability.**  Whatever the contract allows, the nomination is put behind everything that is at
least as large and before everything smaller (`insert_sorted_stable`).
-/

namespace BifrostNode.Staking

open RankedList Words

variable {AccountId : Type}

namespace Nominations

/-- `insert_sorted_greatest_to_least`, given what `binary_search_by` returned. -/
def insertSortedAt (found : Except ℕ ℕ) (self : Nominations AccountId)
    (nomination : Bond AccountId) : Nominations AccountId where
  total := saturatingAdd 128 self.total nomination.amount
  nominations := self.nominations.insertIdx
    (insertionIndex Bond.amount nomination.amount self.nominations found) nomination

/-- While the total fits into a `u128`, this is the insertion of the model. -/
lemma insertSortedAt_binarySearchBy {self : Nominations AccountId} {nomination : Bond AccountId}
    (hfits : self.total + nomination.amount < 2 ^ 128) :
    self.insertSortedGreatestToLeast nomination =
      insertSortedAt (binarySearchBy (fun x : Bond AccountId =>
        compare nomination.amount x.amount) self.nominations) self nomination := by
  rw [insertSortedGreatestToLeast, insertSortedAt, saturatingAdd_of_lt hfits]

/-- On a ranked list every outcome of the search leads to the same list. -/
lemma insertSortedAt_nominations {found : Except ℕ ℕ} {self : Nominations AccountId}
    {nomination : Bond AccountId} (hsorted : Desc Bond.amount self.nominations)
    (hfound : IsSearchResult Bond.amount nomination.amount self.nominations found) :
    (insertSortedAt found self nomination).nominations =
      rankInsert Bond.amount nomination self.nominations :=
  insertIdx_insertionIndex hsorted hfound

/-- **Sorted insertion is stable.**  On a list sorted from greatest to least, whichever matching
index the search returns, the new nomination goes behind every nomination of greater or equal
amount and before every smaller one, the others keep their order, and its amount is added to the
total. -/
theorem insert_sorted_stable {found : Except ℕ ℕ} {self : Nominations AccountId}
    {nomination : Bond AccountId}
    (hsorted : self.nominations.Pairwise fun x y => y.amount ≤ x.amount)
    (hfound : IsSearchResult Bond.amount nomination.amount self.nominations found) :
    ∃ earlier smaller, self.nominations = earlier ++ smaller ∧
      (∀ x ∈ earlier, nomination.amount ≤ x.amount) ∧
      (∀ x ∈ smaller, x.amount < nomination.amount) ∧
      insertSortedAt found self nomination =
        ⟨earlier ++ nomination :: smaller, saturatingAdd 128 self.total nomination.amount⟩ ∧
      (self.total + nomination.amount < 2 ^ 128 → self.insertSortedGreatestToLeast nomination =
        ⟨earlier ++ nomination :: smaller, self.total + nomination.amount⟩) := by
  have hdesc : Desc Bond.amount self.nominations := hsorted
  obtain ⟨hearlier, hsmaller⟩ := hdesc.split nomination.amount
  have hat : ∀ r, IsSearchResult Bond.amount nomination.amount self.nominations r →
      insertSortedAt r self nomination =
        ⟨rankInsert Bond.amount nomination self.nominations,
          saturatingAdd 128 self.total nomination.amount⟩ := by
    intro r hr
    rw [← insertSortedAt_nominations hdesc hr]
    rfl
  refine ⟨_, _, (List.takeWhile_append_dropWhile (p := fun y : Bond AccountId =>
    decide (nomination.amount ≤ y.amount))).symm, hearlier, hsmaller, hat found hfound, ?_⟩
  intro hfits
  rw [insertSortedAt_binarySearchBy hfits, hat _ (isSearchResult_binarySearchBy _ hdesc),
    saturatingAdd_of_lt hfits]
  rfl

/-- Three nominations of 50 and one of 20: a search that stops at the first of the three puts the
newcomer behind the last of them. -/
theorem insert_sorted_stable_ties :
    IsSearchResult Bond.amount 50
        [(⟨1, 50⟩ : Bond ℕ), ⟨2, 50⟩, ⟨3, 50⟩, ⟨4, 20⟩] (.ok 0) ∧
      ∃ earlier smaller, [(⟨1, 50⟩ : Bond ℕ), ⟨2, 50⟩, ⟨3, 50⟩, ⟨4, 20⟩] = earlier ++ smaller ∧
        (∀ x ∈ earlier, 50 ≤ x.amount) ∧ (∀ x ∈ smaller, x.amount < 50) ∧
        insertSortedAt (.ok 0) ⟨[⟨1, 50⟩, ⟨2, 50⟩, ⟨3, 50⟩, ⟨4, 20⟩], 170⟩ ⟨9, 50⟩ =
          ⟨earlier ++ ⟨9, 50⟩ :: smaller, 220⟩ := by
  have hfound : IsSearchResult Bond.amount 50
      [(⟨1, 50⟩ : Bond ℕ), ⟨2, 50⟩, ⟨3, 50⟩, ⟨4, 20⟩] (.ok 0) := ⟨_, rfl, rfl⟩
  have hstable := @insert_sorted_stable ℕ (.ok 0)
    ⟨[⟨1, 50⟩, ⟨2, 50⟩, ⟨3, 50⟩, ⟨4, 20⟩], 170⟩ ⟨9, 50⟩ (by decide) hfound
  obtain ⟨earlier, smaller, hlist, hearlier, hsmaller, hinsert, -⟩ := hstable
  exact ⟨hfound, earlier, smaller, hlist, hearlier, hsmaller, hinsert⟩

end Nominations

end BifrostNode.Staking
