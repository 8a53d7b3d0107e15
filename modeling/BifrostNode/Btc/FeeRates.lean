import BifrostNode.Lib.Median
import BifrostNode.Btc.Blaze

/-!
# The median of the fee rates

The relayers submit a long term and a current fee rate each, and the hook works with the medians of those
that have not expired.

**Bounds.**  With fewer than half of the submitters at fault, each median is between two of the rates of
the sound ones, and so between the smallest and the largest of them.  What the others submit instead does
not move it out of there (`feeRates_robust`).
-/

namespace BifrostNode.Btc

open Staking

variable {AccountId : Type}

namespace Blaze

variable {s s' : Blaze AccountId} {majority n lt fee x : ℕ} {faulty : Finset AccountId}
  {value : FeeRate → ℕ}

/-! ## Submissions -/

/-- The rate is between two that submitters without a fault have submitted. -/
def Bounded (s : Blaze AccountId) (n : ℕ) (faulty : Finset AccountId) (value : FeeRate → ℕ)
    (x : ℕ) : Prop :=
  (∃ a ∉ faulty, ∃ low, (s.liveFeeRates n).get a = some low ∧ value low ≤ x) ∧
    ∃ a ∉ faulty, ∃ high, (s.liveFeeRates n).get a = some high ∧ x ≤ value high

/-- The submitters at fault have submitted something else. -/
structure Resubmitted (s s' : Blaze AccountId) (n : ℕ) (faulty : Finset AccountId) : Prop where
  submitters : (s'.liveFeeRates n).keys = (s.liveFeeRates n).keys
  sound : ∀ a ∉ faulty, (s'.liveFeeRates n).get a = (s.liveFeeRates n).get a

/-- The bounds only look at what the sound submitters say. -/
lemma Resubmitted.bounded (h : Resubmitted s s' n faulty) (hb : Bounded s' n faulty value x) :
    Bounded s n faulty value x := by
  rcases hb with ⟨⟨a, ha, low, hlow, hle⟩, b, hb, high, hhigh, hge⟩
  refine ⟨⟨a, ha, low, ?_, hle⟩, b, hb, high, ?_, hge⟩
  · rw [← h.sound a ha]
    exact hlow
  · rw [← h.sound b hb]
    exact hhigh

/-! ## Medians -/

variable [LinearOrder AccountId]

/-- What it takes for the hook to have fee rates, and what they are. -/
lemma tryFeeRateFinalization_eq_some :
    (s.tryFeeRateFinalization majority n).2 = some (lt, fee) ↔
      majority ≤ (s.liveFeeRates n).keys.card ∧ lt ≤ fee ∧
        lt = median ((s.liveFeeRates n).toList.map fun e => e.2.ltFeeRate) ∧
        fee = median ((s.liveFeeRates n).toList.map fun e => e.2.feeRate) := by
  simp only [tryFeeRateFinalization, List.length_map, StorageMap.length_toList, List.map_map]
  have hlt : FeeRate.ltFeeRate ∘ Prod.snd = fun e : AccountId × FeeRate => e.2.ltFeeRate := rfl
  have hfee : FeeRate.feeRate ∘ Prod.snd = fun e : AccountId × FeeRate => e.2.feeRate := rfl
  rw [hlt, hfee]
  split_ifs with h
  · simp only [Option.some.injEq, Prod.mk.injEq]
    constructor
    · rintro ⟨rfl, rfl⟩
      exact ⟨h.1, h.2, rfl, rfl⟩
    · rintro ⟨-, -, rfl, rfl⟩
      exact ⟨rfl, rfl⟩
  · simp only [false_iff]
    rintro ⟨hmajority, hle, rfl, rfl⟩
    exact h ⟨hmajority, hle⟩

/-- The median of one of the rates is between those of sound submitters. -/
lemma bounded_median (value : FeeRate → ℕ) (h : 2 * faulty.card < (s.liveFeeRates n).keys.card) :
    Bounded s n faulty value (median ((s.liveFeeRates n).toList.map fun e => value e.2)) := by
  have hsources := StorageMap.nodup_keys_toList (s.liveFeeRates n)
  rw [← StorageMap.length_toList] at h
  refine ⟨?_, ?_⟩
  · obtain ⟨⟨a, low⟩, hmem, ha, hle⟩ := Median.exists_le_upperMedian (d := 0)
      (f := fun e : AccountId × FeeRate => value e.2) hsources h
    exact ⟨a, ha, low, StorageMap.mem_toList.mp hmem, hle⟩
  · obtain ⟨⟨a, high⟩, hmem, ha, hle⟩ := Median.exists_upperMedian_le (d := 0)
      (f := fun e : AccountId × FeeRate => value e.2) hsources h
    exact ⟨a, ha, high, StorageMap.mem_toList.mp hmem, hle⟩

/-- Fee rates that the hook has are bounded by those of the sound submitters. -/
lemma bounded_of_finalized (h : (s.tryFeeRateFinalization majority n).2 = some (lt, fee))
    (hfaulty : 2 * faulty.card < (s.liveFeeRates n).keys.card) :
    Bounded s n faulty FeeRate.ltFeeRate lt ∧ Bounded s n faulty FeeRate.feeRate fee := by
  rcases tryFeeRateFinalization_eq_some.mp h with ⟨-, -, rfl, rfl⟩
  exact ⟨bounded_median _ hfaulty, bounded_median _ hfaulty⟩

end Blaze

/-! ## Results -/

/-- **Fee rates are robust.**  They take a majority of unexpired submissions, the long term rate is not
above the current one, and both are between rates of the submitters that are not at fault, as long as
these are more than half; also after the others have submitted something else. -/
theorem feeRates_robust [LinearOrder AccountId] {s : Blaze AccountId} {majority n lt fee : ℕ}
    (h : (s.tryFeeRateFinalization majority n).2 = some (lt, fee)) :
    majority ≤ (s.liveFeeRates n).keys.card ∧ lt ≤ fee ∧
      ∀ faulty ⊆ (s.liveFeeRates n).keys, 2 * faulty.card < (s.liveFeeRates n).keys.card →
        (s.Bounded n faulty Blaze.FeeRate.ltFeeRate lt ∧
          s.Bounded n faulty Blaze.FeeRate.feeRate fee) ∧
        ∀ s' : Blaze AccountId, s.Resubmitted s' n faulty → ∀ lt' fee',
          (s'.tryFeeRateFinalization majority n).2 = some (lt', fee') →
            s.Bounded n faulty Blaze.FeeRate.ltFeeRate lt' ∧
              s.Bounded n faulty Blaze.FeeRate.feeRate fee' := by
  rcases Blaze.tryFeeRateFinalization_eq_some.mp h with ⟨hmajority, hle, -⟩
  refine ⟨hmajority, hle, fun faulty _ hfaulty => ⟨Blaze.bounded_of_finalized h hfaulty, ?_⟩⟩
  intro s' hs' lt' fee' h'
  rw [← hs'.submitters] at hfaulty
  obtain ⟨hlt, hfee⟩ := Blaze.bounded_of_finalized h' hfaulty
  exact ⟨hs'.bounded hlt, hs'.bounded hfee⟩

/-- Three relayers, of whom the first may be at fault. -/
def threeRates : Blaze ℕ :=
  { Blaze.genesis with
    feeRates := ((StorageMap.empty.insert 1 ⟨9, 900, 5⟩).insert 2 ⟨3, 10, 5⟩).insert 3 ⟨2, 12, 4⟩ }

theorem feeRates_robust_three :
    Blaze.Bounded threeRates 4 {1} Blaze.FeeRate.ltFeeRate 3 ∧
      Blaze.Bounded threeRates 4 {1} Blaze.FeeRate.feeRate 12 := by
  have h : (threeRates.tryFeeRateFinalization 2 4).2 = some (3, 12) := by decide +kernel
  exact ((feeRates_robust h).2.2 {1} (by decide +kernel) (by decide +kernel)).1

end BifrostNode.Btc
