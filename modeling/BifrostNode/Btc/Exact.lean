import BifrostNode.Btc.Selection

/-!
# Selection without overflow

The sums of coin selection are `u64` and wrap around.  For each search there is a predicate that none of
its sums does, each where the source gets to it (`DfsExact`, `KnapsackExact`), and bounds on the pool
and the target under which it holds.

**When none overflows.**  A pool whose values, excess fees and weights fit leaves only the ends of the two
ranges (`selectExact_iff`).
-/

namespace BifrostNode.Btc

lemma u64_of_lt {n : ℕ} (h : n < 2 ^ 64) : u64 n = n := Nat.mod_eq_of_lt h

/-! ## Totals -/

def totalValue (pool : List ScoredUtxo) : ℕ := (pool.map ScoredUtxo.effectiveValue).sum

def totalExcess (pool : List ScoredUtxo) : ℕ := (pool.map ScoredUtxo.excessFee).sum

def totalWeight (pool : List ScoredUtxo) : ℕ := (pool.map fun x => x.utxo.inputVbytes).sum

@[simp] lemma totalValue_cons (x : ScoredUtxo) (pool : List ScoredUtxo) :
    totalValue (x :: pool) = x.effectiveValue + totalValue pool := List.sum_cons

@[simp] lemma totalExcess_cons (x : ScoredUtxo) (pool : List ScoredUtxo) :
    totalExcess (x :: pool) = x.excessFee + totalExcess pool := List.sum_cons

@[simp] lemma totalWeight_cons (x : ScoredUtxo) (pool : List ScoredUtxo) :
    totalWeight (x :: pool) = x.utxo.inputVbytes + totalWeight pool := List.sum_cons

@[simp] lemma totalValue_snoc (pool : List ScoredUtxo) (x : ScoredUtxo) :
    totalValue (pool ++ [x]) = totalValue pool + x.effectiveValue := by
  simp [totalValue]

@[simp] lemma totalExcess_snoc (pool : List ScoredUtxo) (x : ScoredUtxo) :
    totalExcess (pool ++ [x]) = totalExcess pool + x.excessFee := by
  simp [totalExcess]

@[simp] lemma totalWeight_snoc (pool : List ScoredUtxo) (x : ScoredUtxo) :
    totalWeight (pool ++ [x]) = totalWeight pool + x.utxo.inputVbytes := by
  simp [totalWeight]

lemma totalValue_perm {pool pool' : List ScoredUtxo} (h : pool.Perm pool') :
    totalValue pool = totalValue pool' := (h.map _).sum_eq

lemma totalExcess_perm {pool pool' : List ScoredUtxo} (h : pool.Perm pool') :
    totalExcess pool = totalExcess pool' := (h.map _).sum_eq

lemma totalWeight_perm {pool pool' : List ScoredUtxo} (h : pool.Perm pool') :
    totalWeight pool = totalWeight pool' := (h.map _).sum_eq

/-- Coins of a pool, none of them twice, add up to no more than the pool. -/
lemma sum_le_of_subperm {α : Type} {xs ys : List α} (h : xs.Subperm ys) (f : α → ℕ) :
    (xs.map f).sum ≤ (ys.map f).sum := by
  obtain ⟨zs, hperm, hsub⟩ := h
  rw [← (hperm.map f).sum_eq]
  exact (hsub.map f).sum_le_sum fun _ _ => Nat.zero_le _

/-- A suffix sum saturates. -/
lemma suffixSum_eq_min (pool : List ScoredUtxo) :
    suffixSum pool = min (totalValue pool) (2 ^ 64 - 1) := by
  induction pool with
  | nil => rfl
  | cons x pool ih =>
      have hfold : suffixSum (x :: pool) = saturate64 (suffixSum pool + x.effectiveValue) := rfl
      rw [hfold, ih, totalValue_cons, saturate64]
      omega

/-- A suffix sum does not saturate while the total is below. -/
lemma suffixSum_eq {pool : List ScoredUtxo} (h : totalValue pool < 2 ^ 64) :
    suffixSum pool = totalValue pool := by
  rw [suffixSum_eq_min]
  omega

/-! ## Branch and bound -/

namespace BnbTarget

/-- The sums of one node. -/
def VisitExact (t : BnbTarget) (pool selection : List ScoredUtxo) (value weight : ℕ)
    (search : Search) : Prop :=
  search.tries < t.maxTries →
    value + suffixSum pool < 2 ^ 64 ∧
    (t.target ≤ value + suffixSum pool →
      t.target + t.costOfChange < 2 ^ 64 ∧
      (value ≤ t.target + t.costOfChange → weight ≤ t.maxSelectionWeight → t.target ≤ value →
        value - t.target + totalExcess selection < 2 ^ 64))

/-- The sums of `dfs` in `select_coins_bnb`. -/
def DfsExact (t : BnbTarget) : List ScoredUtxo → List ScoredUtxo → ℕ → ℕ → Search → Prop
  | [], selection, value, weight, search => t.VisitExact [] selection value weight search
  | x :: pool, selection, value, weight, search =>
      t.VisitExact (x :: pool) selection value weight search ∧
      ((t.visit (x :: pool) selection value weight search).2 = true →
        value + x.effectiveValue < 2 ^ 64 ∧ weight + x.utxo.inputVbytes < 2 ^ 64 ∧
        ∀ next, (t.visit (x :: pool) selection value weight search).1 = next →
          t.DfsExact pool (selection ++ [x]) (value + x.effectiveValue)
            (weight + x.utxo.inputVbytes) next ∧
          t.DfsExact pool selection value weight
            (t.dfs pool (selection ++ [x]) (value + x.effectiveValue) (weight + x.utxo.inputVbytes)
              next))

lemma visitExact_of (t : BnbTarget) {pool selection : List ScoredUtxo} {value weight : ℕ}
    {search : Search} (hsum : value + totalExcess selection + totalValue pool < 2 ^ 64)
    (ht : t.target ≤ value + totalValue pool → t.target + t.costOfChange < 2 ^ 64) :
    t.VisitExact pool selection value weight search := by
  intro _
  rw [suffixSum_eq (by omega)]
  refine ⟨by omega, fun hreach => ⟨ht hreach, fun _ _ _ => by omega⟩⟩

/-- **The search does not overflow**, if the pool does not and neither does the change on top of a target
that can be reached. -/
lemma dfsExact_of (t : BnbTarget) :
    ∀ {pool selection : List ScoredUtxo} {value weight : ℕ} {search : Search},
      value + totalExcess selection + totalValue pool + totalExcess pool < 2 ^ 64 →
      weight + totalWeight pool < 2 ^ 64 →
      (t.target ≤ value + totalValue pool → t.target + t.costOfChange < 2 ^ 64) →
      t.DfsExact pool selection value weight search := by
  intro pool
  induction pool with
  | nil =>
      intro selection value weight search hsum _ ht
      exact t.visitExact_of (by omega) ht
  | cons x pool ih =>
      intro selection value weight search hsum hweight ht
      simp only [totalValue_cons, totalExcess_cons, totalWeight_cons] at hsum hweight ht
      refine ⟨t.visitExact_of ?_ ?_, fun _ => ⟨by omega, by omega, fun next _ => ⟨?_, ?_⟩⟩⟩
      · rw [totalValue_cons]
        omega
      · rw [totalValue_cons]
        exact ht
      · refine ih ?_ (by omega) fun hreach => ht (by omega)
        rw [totalExcess_snoc]
        omega
      · exact ih (by omega) (by omega) fun hreach => ht (by omega)

/-- What a search that does not overflow says of its first node. -/
lemma DfsExact.visit {t : BnbTarget} {pool selection : List ScoredUtxo} {value weight : ℕ}
    {search : Search} (h : t.DfsExact pool selection value weight search) :
    t.VisitExact pool selection value weight search := by
  cases pool with
  | nil => exact h
  | cons x pool => exact h.1

end BnbTarget

/-! ## Knapsack -/

/-- The sums of `dfs` in `select_coins_knapsack`. -/
def KnapsackDfsExact (target maxWeight maxTries : ℕ) :
    List ScoredUtxo → List ScoredUtxo → ℕ → ℕ → Search → Prop
  | [], _, value, _, search => search.tries < maxTries → value + suffixSum [] < 2 ^ 64
  | x :: pool, selection, value, weight, search =>
      (search.tries < maxTries → value + suffixSum (x :: pool) < 2 ^ 64) ∧
      ((knapsackVisit target maxWeight maxTries (x :: pool) selection value weight search).2 = true →
        value + x.effectiveValue < 2 ^ 64 ∧ weight + x.utxo.inputVbytes < 2 ^ 64 ∧
        ∀ next, (knapsackVisit target maxWeight maxTries (x :: pool) selection value weight
            search).1 = next →
          KnapsackDfsExact target maxWeight maxTries pool (selection ++ [x])
            (value + x.effectiveValue) (weight + x.utxo.inputVbytes) next ∧
          KnapsackDfsExact target maxWeight maxTries pool selection value weight
            (knapsackDfs target maxWeight maxTries pool (selection ++ [x]) (value + x.effectiveValue)
              (weight + x.utxo.inputVbytes) next))

lemma knapsackDfsExact_of {target maxWeight maxTries : ℕ} :
    ∀ {pool selection : List ScoredUtxo} {value weight : ℕ} {search : Search},
      value + totalValue pool < 2 ^ 64 → weight + totalWeight pool < 2 ^ 64 →
      KnapsackDfsExact target maxWeight maxTries pool selection value weight search := by
  intro pool
  induction pool with
  | nil =>
      intro selection value weight search hsum _ _
      rw [suffixSum_eq (by simp [totalValue])]
      exact hsum
  | cons x pool ih =>
      intro selection value weight search hsum hweight
      simp only [totalWeight_cons] at hweight
      refine ⟨fun _ => ?_, fun _ => ?_⟩
      · rw [suffixSum_eq (by omega)]
        exact hsum
      · simp only [totalValue_cons] at hsum
        exact ⟨by omega, by omega, fun next _ => ⟨ih (by omega) (by omega), ih (by omega) (by omega)⟩⟩

/-- The sums of `select_coins_knapsack`.  The first loop adds up the end of the change range for every
coin. -/
def KnapsackExact (pool : List ScoredUtxo) (target changeTarget maxWeight : ℕ) : Prop :=
  (pool ≠ [] → target + changeTarget < 2 ^ 64) ∧
  ∀ k, Knapsack.fill pool target changeTarget maxWeight = k → k.bestExact = none →
    totalValue k.applicable < 2 ^ 64 ∧
    (target ≤ totalValue k.applicable →
      KnapsackDfsExact target maxWeight knapsackTries
        (k.applicable.insertionSort ScoredUtxo.knapsackOrder) [] 0 0 .start)

/-- **The knapsack does not overflow**, if the pool does not and neither does the change range. -/
lemma knapsackExact_of {pool : List ScoredUtxo} {target changeTarget maxWeight : ℕ}
    (hvalue : totalValue pool < 2 ^ 64) (hweight : totalWeight pool < 2 ^ 64)
    (hrange : pool ≠ [] → target + changeTarget < 2 ^ 64) :
    KnapsackExact pool target changeTarget maxWeight := by
  refine ⟨hrange, fun k hk _ => ?_⟩
  subst hk
  have hsub := (Knapsack.fill_sublist target changeTarget maxWeight pool).subperm
  have hsmall := sum_le_of_subperm hsub ScoredUtxo.effectiveValue
  have hlight := sum_le_of_subperm hsub fun x => x.utxo.inputVbytes
  have hperm := List.perm_insertionSort ScoredUtxo.knapsackOrder
    (Knapsack.fill pool target changeTarget maxWeight).applicable
  refine ⟨hsmall.trans_lt hvalue, fun _ => knapsackDfsExact_of ?_ ?_⟩
  · rw [totalValue_perm hperm, zero_add]
    exact hsmall.trans_lt hvalue
  · rw [totalWeight_perm hperm, zero_add]
    exact hlight.trans_lt hweight

/-- The sums of `select_coins`. -/
def SelectExact (pool : List ScoredUtxo)
    (target costOfChange maxSelectionWeight maxTries changeTarget : ℕ) : Prop :=
  (⟨target, costOfChange, maxSelectionWeight, maxTries⟩ : BnbTarget).DfsExact
      (pool.insertionSort ScoredUtxo.bnbOrder) [] 0 0 .start ∧
  (selectCoinsBnb pool target costOfChange maxSelectionWeight maxTries = none →
    KnapsackExact pool target changeTarget maxSelectionWeight)

/-- **Selection does not overflow** exactly when neither the change on top of a target that can be
reached does, nor the change range of the knapsack. -/
lemma selectExact_iff {pool : List ScoredUtxo}
    {target costOfChange maxSelectionWeight maxTries changeTarget : ℕ}
    (hvalue : totalValue pool + totalExcess pool < 2 ^ 64) (hweight : totalWeight pool < 2 ^ 64)
    (htries : 0 < maxTries) :
    SelectExact pool target costOfChange maxSelectionWeight maxTries changeTarget ↔
      (target ≤ totalValue pool → target + costOfChange < 2 ^ 64) ∧
      (selectCoinsBnb pool target costOfChange maxSelectionWeight maxTries = none → pool ≠ [] →
        target + changeTarget < 2 ^ 64) := by
  have hperm := List.perm_insertionSort ScoredUtxo.bnbOrder pool
  constructor
  · rintro ⟨hbnb, hknapsack⟩
    refine ⟨fun hreach => ?_, fun hnone => (hknapsack hnone).1⟩
    obtain ⟨-, hcost⟩ := hbnb.visit htries
    have hsorted : totalValue (pool.insertionSort ScoredUtxo.bnbOrder) = totalValue pool :=
      totalValue_perm hperm
    rw [suffixSum_eq (by omega), hsorted, zero_add] at hcost
    exact (hcost hreach).1
  · rintro ⟨hcost, hrange⟩
    refine ⟨BnbTarget.dfsExact_of _ ?_ ?_ ?_, fun hnone => knapsackExact_of (by omega) hweight (hrange hnone)⟩
    · rw [totalValue_perm hperm, totalExcess_perm hperm]
      simpa [totalExcess] using hvalue
    · rw [totalWeight_perm hperm, zero_add]
      exact hweight
    · rw [totalValue_perm hperm, zero_add]
      exact hcost

end BifrostNode.Btc
