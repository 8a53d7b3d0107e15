import BifrostNode.Btc.Bitcoin

/-!
# Coin selection

`select_coins` of `blaze`: branch and bound for a selection without change, else the knapsack solver.

Both searches walk the sorted coins from the front.  The list that is left stands for the index of the
source, and its suffix sum is computed where the source looks it up.  A `Search` is what the source
keeps behind mutable references: the number of nodes visited and the best selection so far.
-/

namespace BifrostNode.Btc

open Cccp

structure UtxoInfo where
  txid : H256
  vout : ℕ
  amount : ℕ
  address : Bytes
  deriving DecidableEq

structure UtxoInfoWithSize where
  hash : H256
  txid : H256
  vout : ℕ
  amount : ℕ
  descriptor : Bytes
  inputVbytes : ℕ
  deriving DecidableEq

structure ScoredUtxo where
  utxo : UtxoInfoWithSize
  fee : ℕ
  longTermFee : ℕ
  effectiveValue : ℕ
  deriving DecidableEq

inductive SelectionStrategy
  | bnb
  | knapsack
  deriving DecidableEq

namespace ScoredUtxo

/-- What it costs to spend the coin now rather than later. -/
def excessFee (self : ScoredUtxo) : ℕ := self.fee - self.longTermFee

/-- The order in which branch and bound tries coins. -/
def bnbOrder (a b : ScoredUtxo) : Prop :=
  b.effectiveValue < a.effectiveValue ∨
    (a.effectiveValue = b.effectiveValue ∧ a.excessFee ≤ b.excessFee)

/-- The order in which the knapsack solver tries coins. -/
def knapsackOrder (a b : ScoredUtxo) : Prop := b.effectiveValue ≤ a.effectiveValue

instance : DecidableRel bnbOrder := fun _ _ => inferInstanceAs (Decidable (_ ∨ _))

instance : DecidableRel knapsackOrder := fun _ _ => inferInstanceAs (Decidable (_ ≤ _))

end ScoredUtxo

/-- The entry of `suffix_sums` for the coins that are left. -/
def suffixSum (pool : List ScoredUtxo) : ℕ :=
  pool.foldr (fun x sum => saturate64 (sum + x.effectiveValue)) 0

/-- A search so far. -/
structure Search where
  tries : ℕ
  bestSelection : List UtxoInfoWithSize
  best : ℕ

namespace Search

def start : Search := ⟨0, [], 2 ^ 64 - 1⟩

/-- Another node is visited. -/
def next (self : Search) : Search := { self with tries := self.tries + 1 }

/-- A selection is recorded if it is better than those before. -/
def record (self : Search) (selection : List ScoredUtxo) (score : ℕ) : Search :=
  if score < self.best then
    { self with best := score, bestSelection := selection.map ScoredUtxo.utxo }
  else self

end Search

/-! ## Branch and bound -/

/-- The arguments of the search that stay the same. -/
structure BnbTarget where
  target : ℕ
  costOfChange : ℕ
  maxSelectionWeight : ℕ
  maxTries : ℕ

/-- One node of `dfs` in `select_coins_bnb`, and whether the search goes on below it. -/
def BnbTarget.visit (t : BnbTarget) (pool selection : List ScoredUtxo) (value weight : ℕ)
    (search : Search) : Search × Bool :=
  if t.maxTries ≤ search.tries then (search, false)
  else if u64 (value + suffixSum pool) < t.target then (search.next, false)
  else if u64 (t.target + t.costOfChange) < value then (search.next, false)
  else if t.maxSelectionWeight < weight then (search.next, false)
  else if t.target ≤ value then
    let waste := u64 (value - t.target + u64 (selection.map ScoredUtxo.excessFee).sum)
    (search.next.record selection waste, false)
  else (search.next, search.best ≠ 0)

/-- `dfs` of `select_coins_bnb`. -/
def BnbTarget.dfs (t : BnbTarget) :
    List ScoredUtxo → List ScoredUtxo → ℕ → ℕ → Search → Search
  | [], selection, value, weight, search => (t.visit [] selection value weight search).1
  | x :: pool, selection, value, weight, search =>
      match t.visit (x :: pool) selection value weight search with
      | (search, false) => search
      | (search, true) =>
          let search := t.dfs pool (selection ++ [x]) (u64 (value + x.effectiveValue))
            (u64 (weight + x.utxo.inputVbytes)) search
          t.dfs pool selection value weight search

/-- `select_coins_bnb`. -/
def selectCoinsBnb (pool : List ScoredUtxo) (target costOfChange maxSelectionWeight maxTries : ℕ) :
    Option (List UtxoInfoWithSize × SelectionStrategy) :=
  let t : BnbTarget := ⟨target, costOfChange, maxSelectionWeight, maxTries⟩
  let best := t.dfs (pool.insertionSort ScoredUtxo.bnbOrder) [] 0 0 .start
  if best.bestSelection.isEmpty then none else some (best.bestSelection, .bnb)

/-! ## Knapsack -/

/-- The coins by their size: the best one that covers the target within the change range, the ones
below that range, and the lowest above it. -/
structure Knapsack where
  applicable : List ScoredUtxo
  lowestLarger : Option ScoredUtxo
  bestExact : Option ScoredUtxo

/-- Whether a coin is less than the one kept so far. -/
def isLess (x : ScoredUtxo) (kept : Option ScoredUtxo) : Bool :=
  kept.all fun y => x.effectiveValue < y.effectiveValue

/-- One turn of the loop that puts the coins in their places. -/
def Knapsack.put (target changeTarget maxWeight : ℕ) (k : Knapsack) (x : ScoredUtxo) : Knapsack :=
  if target ≤ x.effectiveValue ∧ x.effectiveValue ≤ u64 (target + changeTarget) ∧
      x.utxo.inputVbytes ≤ maxWeight then
    if isLess x k.bestExact then { k with bestExact := some x } else k
  else if x.effectiveValue < u64 (target + changeTarget) then
    { k with applicable := k.applicable ++ [x] }
  else if isLess x k.lowestLarger then { k with lowestLarger := some x } else k

/-- One node of `dfs` in `select_coins_knapsack`, and whether the search goes on below it. -/
def knapsackVisit (target maxWeight maxTries : ℕ) (pool selection : List ScoredUtxo)
    (value weight : ℕ) (search : Search) : Search × Bool :=
  if maxTries ≤ search.tries then (search, false)
  else if u64 (value + suffixSum pool) < target then (search.next, false)
  else if maxWeight < weight then (search.next, false)
  else if target ≤ value then (search.next.record selection value, false)
  else (search.next, search.best ≠ target)

/-- `dfs` of `select_coins_knapsack`. -/
def knapsackDfs (target maxWeight maxTries : ℕ) :
    List ScoredUtxo → List ScoredUtxo → ℕ → ℕ → Search → Search
  | [], selection, value, weight, search =>
      (knapsackVisit target maxWeight maxTries [] selection value weight search).1
  | x :: pool, selection, value, weight, search =>
      match knapsackVisit target maxWeight maxTries (x :: pool) selection value weight search with
      | (search, false) => search
      | (search, true) =>
          let search := knapsackDfs target maxWeight maxTries pool (selection ++ [x])
            (u64 (value + x.effectiveValue)) (u64 (weight + x.utxo.inputVbytes)) search
          knapsackDfs target maxWeight maxTries pool selection value weight search

/-- The number of nodes that `select_coins_knapsack` visits at most. -/
def knapsackTries : ℕ := 100000

/-- The lowest larger coin, if it is not too heavy. -/
def Knapsack.single (k : Knapsack) (maxWeight : ℕ) :
    Option (List UtxoInfoWithSize × SelectionStrategy) :=
  (k.lowestLarger.filter fun x => x.utxo.inputVbytes ≤ maxWeight).map fun x => ([x.utxo], .knapsack)

/-- `select_coins_knapsack`. -/
def selectCoinsKnapsack (pool : List ScoredUtxo) (target changeTarget maxWeight : ℕ) :
    Option (List UtxoInfoWithSize × SelectionStrategy) :=
  let k := pool.foldl (Knapsack.put target changeTarget maxWeight) ⟨[], none, none⟩
  match k.bestExact with
  | some exact => some ([exact.utxo], .knapsack)
  | none =>
      if u64 (k.applicable.map ScoredUtxo.effectiveValue).sum < target then k.single maxWeight
      else
        let best := knapsackDfs target maxWeight knapsackTries
          (k.applicable.insertionSort ScoredUtxo.knapsackOrder) [] 0 0 .start
        if best.bestSelection.isEmpty then k.single maxWeight
        else match k.lowestLarger with
          | some larger =>
              if larger.utxo.inputVbytes ≤ maxWeight ∧ larger.effectiveValue ≤ best.best then
                some ([larger.utxo], .knapsack)
              else some (best.bestSelection, .knapsack)
          | none => some (best.bestSelection, .knapsack)

/-- `select_coins`. -/
def selectCoins (pool : List ScoredUtxo)
    (target costOfChange maxSelectionWeight maxTries changeTarget : ℕ) :
    Option (List UtxoInfoWithSize × SelectionStrategy) :=
  match selectCoinsBnb pool target costOfChange maxSelectionWeight maxTries with
  | some selected => some selected
  | none => selectCoinsKnapsack pool target changeTarget maxSelectionWeight

end BifrostNode.Btc
