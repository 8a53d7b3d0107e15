import BifrostNode.Btc.Coins
import BifrostNode.Lib.Sublists

/-!
# What is selected

Both searches are searches of the sublists of a sorted pool, and record some of those that they come by.

**Coins of the pool.**  Whatever they weigh and whatever they are worth, the coins that are selected are
coins of the pool, and none of them is taken twice (`selectCoins_subperm`).
-/

namespace BifrostNode.Btc

/-! ## What a search has found -/

/-- The search has found nothing, or a selection that has `Q` with its score.  The score it starts from
is one that it does not find. -/
def Search.Found (Q : List ScoredUtxo → ℕ → Prop) (search : Search) : Prop :=
  (search.bestSelection = [] ∧ search.best = 2 ^ 64 - 1) ∨
    search.best < 2 ^ 64 - 1 ∧
      ∃ chosen, Q chosen search.best ∧ search.bestSelection = chosen.map ScoredUtxo.utxo

section Found

variable {Q : List ScoredUtxo → ℕ → Prop} {search : Search} {selection : List ScoredUtxo} {score : ℕ}

lemma Search.found_start : Search.start.Found Q := .inl ⟨rfl, rfl⟩

lemma Search.Found.next (h : search.Found Q) : search.next.Found Q := h

lemma Search.Found.record (h : search.Found Q) (hsel : Q selection score) :
    (search.record selection score).Found Q := by
  rw [Search.record]
  split_ifs with hbetter
  · refine .inr ⟨?_, selection, hsel, rfl⟩
    rcases h with ⟨-, hnone⟩ | ⟨hbest, -⟩
    · exact hnone ▸ hbetter
    · exact hbetter.trans hbest
  · exact h

/-- A node of branch and bound records its selection, if it has `Q`. -/
lemma BnbTarget.visit_found (t : BnbTarget) {pool : List ScoredUtxo} {value weight : ℕ}
    (h : search.Found Q)
    (hrecord : search.tries < t.maxTries → t.target ≤ u64 (value + suffixSum pool) →
      value ≤ u64 (t.target + t.costOfChange) → weight ≤ t.maxSelectionWeight → t.target ≤ value →
      Q selection (u64 (value - t.target + u64 (selection.map ScoredUtxo.excessFee).sum))) :
    (t.visit pool selection value weight search).1.Found Q := by
  rw [BnbTarget.visit]
  split_ifs with htries hreach hover hheavy henough
  · exact h
  · exact h
  · exact h
  · exact h
  · exact h.next.record (hrecord (not_le.mp htries) (not_lt.mp hreach) (not_lt.mp hover)
      (not_lt.mp hheavy) henough)
  · exact h

/-- A node of the knapsack search records its selection, if it has `Q`. -/
lemma knapsackVisit_found {target maxWeight maxTries : ℕ} {pool : List ScoredUtxo} {value weight : ℕ}
    (h : search.Found Q)
    (hrecord : search.tries < maxTries → weight ≤ maxWeight → target ≤ value → Q selection value) :
    (knapsackVisit target maxWeight maxTries pool selection value weight search).1.Found Q := by
  rw [knapsackVisit]
  split_ifs with htries hreach hheavy henough
  · exact h
  · exact h
  · exact h
  · exact h.next.record (hrecord (not_le.mp htries) (not_lt.mp hheavy) henough)
  · exact h

end Found

/-! ## The searches -/

/-- A node of a search: the coins taken so far, what they are worth, and their weight. -/
structure Taken where
  selection : List ScoredUtxo
  value : ℕ
  weight : ℕ

namespace Taken

def take (a : Taken) (x : ScoredUtxo) : Taken :=
  ⟨a.selection ++ [x], u64 (a.value + x.effectiveValue), u64 (a.weight + x.utxo.inputVbytes)⟩

def start : Taken := ⟨[], 0, 0⟩

end Taken

/-- Branch and bound as a search of sublists. -/
def BnbTarget.search (t : BnbTarget) : SublistSearch ScoredUtxo Taken Search where
  visit pool a := t.visit pool a.selection a.value a.weight
  take := Taken.take

/-- The knapsack search as a search of sublists. -/
def knapsackSearch (target maxWeight maxTries : ℕ) : SublistSearch ScoredUtxo Taken Search where
  visit pool a := knapsackVisit target maxWeight maxTries pool a.selection a.value a.weight
  take := Taken.take

lemma BnbTarget.dfs_eq_run (t : BnbTarget) :
    ∀ (pool : List ScoredUtxo) (a : Taken) (search : Search),
      t.dfs pool a.selection a.value a.weight search = t.search.run pool a search := by
  intro pool
  induction pool with
  | nil => exact fun _ _ => rfl
  | cons x pool ih =>
      intro a search
      rw [BnbTarget.dfs]
      split
      case h_1 next heq =>
        have hstop : (t.search.visit (x :: pool) a search).2 = false := congrArg Prod.snd heq
        rw [SublistSearch.run_stop hstop]
        exact (congrArg Prod.fst heq).symm
      case h_2 next heq =>
        have hgo : (t.search.visit (x :: pool) a search).2 = true := congrArg Prod.snd heq
        have hnext : (t.search.visit (x :: pool) a search).1 = next := congrArg Prod.fst heq
        rw [SublistSearch.run_go hgo, hnext, ← ih a, ← ih (t.search.take a x)]
        rfl

lemma knapsackDfs_eq_run (target maxWeight maxTries : ℕ) :
    ∀ (pool : List ScoredUtxo) (a : Taken) (search : Search),
      knapsackDfs target maxWeight maxTries pool a.selection a.value a.weight search =
        (knapsackSearch target maxWeight maxTries).run pool a search := by
  intro pool
  induction pool with
  | nil => exact fun _ _ => rfl
  | cons x pool ih =>
      intro a search
      rw [knapsackDfs]
      split
      case h_1 next heq =>
        have hstop : ((knapsackSearch target maxWeight maxTries).visit (x :: pool) a search).2 =
            false := congrArg Prod.snd heq
        rw [SublistSearch.run_stop hstop]
        exact (congrArg Prod.fst heq).symm
      case h_2 next heq =>
        have hgo : ((knapsackSearch target maxWeight maxTries).visit (x :: pool) a search).2 = true :=
          congrArg Prod.snd heq
        have hnext : ((knapsackSearch target maxWeight maxTries).visit (x :: pool) a search).1 = next :=
          congrArg Prod.fst heq
        rw [SublistSearch.run_go hgo, hnext, ← ih a,
          ← ih ((knapsackSearch target maxWeight maxTries).take a x)]
        rfl

/-- What branch and bound records has `Q`, if it has it at every node that records. -/
lemma BnbTarget.dfs_found (t : BnbTarget) {N : List ScoredUtxo → Taken → Search → Prop}
    {Q : List ScoredUtxo → ℕ → Prop} (hN : t.search.Descends N)
    (hrecord : ∀ rest a search, N rest a search → search.tries < t.maxTries →
      t.target ≤ u64 (a.value + suffixSum rest) → a.value ≤ u64 (t.target + t.costOfChange) →
      a.weight ≤ t.maxSelectionWeight → t.target ≤ a.value →
      Q a.selection (u64 (a.value - t.target + u64 (a.selection.map ScoredUtxo.excessFee).sum)))
    {all : List ScoredUtxo} (hstart : N all .start .start) :
    (t.dfs all [] 0 0 .start).Found Q := by
  have hrun : t.dfs all [] 0 0 .start = t.search.run all .start .start :=
    t.dfs_eq_run all .start .start
  rw [hrun]
  refine SublistSearch.run_invariant hN ?_ all _ _ hstart Search.found_start
  intro rest a search hnode hs
  exact t.visit_found hs (hrecord rest a search hnode)

/-- What the knapsack search records has `Q`, if it has it at every node that records. -/
lemma knapsackDfs_found {target maxWeight maxTries : ℕ} {N : List ScoredUtxo → Taken → Search → Prop}
    {Q : List ScoredUtxo → ℕ → Prop} (hN : (knapsackSearch target maxWeight maxTries).Descends N)
    (hrecord : ∀ rest a search, N rest a search → search.tries < maxTries → a.weight ≤ maxWeight →
      target ≤ a.value → Q a.selection a.value)
    {all : List ScoredUtxo} (hstart : N all .start .start) :
    (knapsackDfs target maxWeight maxTries all [] 0 0 .start).Found Q := by
  have hrun : knapsackDfs target maxWeight maxTries all [] 0 0 .start =
      (knapsackSearch target maxWeight maxTries).run all .start .start :=
    knapsackDfs_eq_run target maxWeight maxTries all .start .start
  rw [hrun]
  refine SublistSearch.run_invariant hN ?_ all _ _ hstart Search.found_start
  intro rest a search hnode hs
  exact knapsackVisit_found hs (hrecord rest a search hnode)

/-- What is taken and what is left are a sublist of the pool at every node. -/
lemma descends_sublist {p : SublistSearch ScoredUtxo Taken Search} (htake : p.take = Taken.take)
    (all : List ScoredUtxo) : p.Descends fun rest a _ => (a.selection ++ rest).Sublist all := by
  refine ⟨fun x rest a search h _ => ?_, fun x rest a search h _ => ?_⟩
  · rw [htake, Taken.take, List.append_assoc]
    exact h
  · exact ((List.sublist_cons_self x rest).append_left a.selection).trans h

lemma sublist_of_node {rest all : List ScoredUtxo} {a : Taken}
    (h : (a.selection ++ rest).Sublist all) : a.selection.Sublist all :=
  (List.sublist_append_left a.selection rest).trans h

/-! ## The places of the coins -/

/-- The coins as the first loop of `select_coins_knapsack` puts them. -/
def Knapsack.fill (pool : List ScoredUtxo) (target changeTarget maxWeight : ℕ) : Knapsack :=
  pool.foldl (Knapsack.put target changeTarget maxWeight) ⟨[], none, none⟩

section Places

variable (target changeTarget maxWeight : ℕ)

/-- A coin in the change range. -/
def ScoredUtxo.IsExact (x : ScoredUtxo) : Prop :=
  target ≤ x.effectiveValue ∧ x.effectiveValue ≤ u64 (target + changeTarget) ∧
    x.utxo.inputVbytes ≤ maxWeight

/-- A coin below the change range. -/
def ScoredUtxo.IsSmall (x : ScoredUtxo) : Prop :=
  ¬ x.IsExact target changeTarget maxWeight ∧ x.effectiveValue < u64 (target + changeTarget)

/-- A coin above the change range. -/
def ScoredUtxo.IsLarger (x : ScoredUtxo) : Prop :=
  ¬ x.IsExact target changeTarget maxWeight ∧ u64 (target + changeTarget) ≤ x.effectiveValue

instance : DecidablePred (ScoredUtxo.IsExact target changeTarget maxWeight) :=
  fun _ => inferInstanceAs (Decidable (_ ∧ _ ∧ _))

instance : DecidablePred (ScoredUtxo.IsSmall target changeTarget maxWeight) :=
  fun _ => inferInstanceAs (Decidable (_ ∧ _))

instance : DecidablePred (ScoredUtxo.IsLarger target changeTarget maxWeight) :=
  fun _ => inferInstanceAs (Decidable (_ ∧ _))

variable (pool : List ScoredUtxo)

/-- **The first loop** keeps the small coins, and of the others the least of each kind. -/
lemma Knapsack.fill_eq : Knapsack.fill pool target changeTarget maxWeight =
    ⟨pool.filter (ScoredUtxo.IsSmall target changeTarget maxWeight),
      (pool.filter (ScoredUtxo.IsLarger target changeTarget maxWeight)).argmin
        ScoredUtxo.effectiveValue,
      (pool.filter (ScoredUtxo.IsExact target changeTarget maxWeight)).argmin
        ScoredUtxo.effectiveValue⟩ := by
  have hless : ∀ (coins : List ScoredUtxo) (x : ScoredUtxo),
      (coins ++ [x]).argmin ScoredUtxo.effectiveValue =
        if isLess x (coins.argmin ScoredUtxo.effectiveValue) then some x
        else coins.argmin ScoredUtxo.effectiveValue := by
    intro coins x
    rw [List.argmin_concat]
    cases coins.argmin ScoredUtxo.effectiveValue with
    | none => rfl
    | some y => simp [isLess]
  induction pool using List.reverseRecOn with
  | nil => rfl
  | append_singleton pool x ih =>
      have hput : Knapsack.fill (pool ++ [x]) target changeTarget maxWeight =
          Knapsack.put target changeTarget maxWeight
            (Knapsack.fill pool target changeTarget maxWeight) x := List.foldl_concat ..
      rw [hput, ih, Knapsack.put]
      simp only [List.filter_append, List.filter_singleton]
      by_cases hexact : x.IsExact target changeTarget maxWeight
      · have hsmall : ¬ x.IsSmall target changeTarget maxWeight := fun h => h.1 hexact
        have hlarger : ¬ x.IsLarger target changeTarget maxWeight := fun h => h.1 hexact
        have hcond : target ≤ x.effectiveValue ∧ x.effectiveValue ≤ u64 (target + changeTarget) ∧
            x.utxo.inputVbytes ≤ maxWeight := hexact
        simp only [hexact, hsmall, hlarger, decide_true, decide_false, cond_true, cond_false,
          List.append_nil, hless, if_pos hcond]
        split_ifs <;> rfl
      · have hcond : ¬ (target ≤ x.effectiveValue ∧ x.effectiveValue ≤ u64 (target + changeTarget) ∧
            x.utxo.inputVbytes ≤ maxWeight) := hexact
        by_cases hbelow : x.effectiveValue < u64 (target + changeTarget)
        · have hsmall : x.IsSmall target changeTarget maxWeight := ⟨hexact, hbelow⟩
          have hlarger : ¬ x.IsLarger target changeTarget maxWeight :=
            fun h => absurd hbelow (not_lt.mpr h.2)
          simp only [hexact, hsmall, hlarger, decide_true, decide_false, cond_true, cond_false,
            List.append_nil, if_neg hcond, if_pos hbelow]
        · have hsmall : ¬ x.IsSmall target changeTarget maxWeight := fun h => hbelow h.2
          have hlarger : x.IsLarger target changeTarget maxWeight := ⟨hexact, not_lt.mp hbelow⟩
          simp only [hexact, hsmall, hlarger, decide_true, decide_false, cond_true, cond_false,
            List.append_nil, hless, if_neg hcond, if_neg hbelow]
          split_ifs <;> rfl

lemma Knapsack.fill_sublist :
    (Knapsack.fill pool target changeTarget maxWeight).applicable.Sublist pool := by
  rw [Knapsack.fill_eq]
  exact List.filter_sublist

variable {target changeTarget maxWeight pool} {x : ScoredUtxo}

/-- The lowest larger coin is one of the pool, and no larger coin of the pool is below it. -/
lemma Knapsack.fill_lowestLarger
    (h : (Knapsack.fill pool target changeTarget maxWeight).lowestLarger = some x) :
    (x ∈ pool ∧ x.IsLarger target changeTarget maxWeight) ∧
      ∀ y ∈ pool, y.IsLarger target changeTarget maxWeight → x.effectiveValue ≤ y.effectiveValue := by
  rw [Knapsack.fill_eq] at h
  refine ⟨?_, fun y hy hlarger => List.le_of_mem_argmin ?_ h⟩
  · simpa using List.argmin_mem h
  · simpa using And.intro hy hlarger

/-- There is a lowest larger coin if the pool has larger coins. -/
lemma Knapsack.fill_lowestLarger_isSome (hx : x ∈ pool)
    (hlarger : x.IsLarger target changeTarget maxWeight) :
    ∃ y, (Knapsack.fill pool target changeTarget maxWeight).lowestLarger = some y := by
  rw [← Option.isSome_iff_exists, Option.isSome_iff_ne_none, Knapsack.fill_eq, Ne,
    List.argmin_eq_none]
  exact List.ne_nil_of_mem (List.mem_filter.mpr ⟨hx, decide_eq_true hlarger⟩)

lemma Knapsack.fill_bestExact
    (h : (Knapsack.fill pool target changeTarget maxWeight).bestExact = some x) :
    x ∈ pool ∧ x.IsExact target changeTarget maxWeight := by
  rw [Knapsack.fill_eq] at h
  simpa using List.argmin_mem h

/-- No coin of the pool is in the change range if none is kept. -/
lemma Knapsack.fill_bestExact_eq_none :
    (Knapsack.fill pool target changeTarget maxWeight).bestExact = none ↔
      ∀ x ∈ pool, ¬ x.IsExact target changeTarget maxWeight := by
  rw [Knapsack.fill_eq, List.argmin_eq_none, List.filter_eq_nil_iff]
  simp

end Places

/-! ## What is returned -/

/-- The knapsack search of a pool, from its first node. -/
def knapsackBest (applicable : List ScoredUtxo) (target maxWeight : ℕ) : Search :=
  knapsackDfs target maxWeight knapsackTries (applicable.insertionSort ScoredUtxo.knapsackOrder)
    [] 0 0 .start

/-- The search of branch and bound, from its first node. -/
def BnbTarget.best (t : BnbTarget) (pool : List ScoredUtxo) : Search :=
  t.dfs (pool.insertionSort ScoredUtxo.bnbOrder) [] 0 0 .start

section Selected

variable {pool : List ScoredUtxo} {target cost weight tries change : ℕ}
  {selected : List UtxoInfoWithSize} {strategy : SelectionStrategy}

lemma selectCoinsBnb_eq_none : selectCoinsBnb pool target cost weight tries = none ↔
    (BnbTarget.best ⟨target, cost, weight, tries⟩ pool).bestSelection = [] := by
  rw [selectCoinsBnb, ← List.isEmpty_iff]
  exact ite_eq_left_iff.trans (by simp [BnbTarget.best])

/-- What branch and bound returns is what its search has found. -/
lemma selectCoinsBnb_eq_some (h : selectCoinsBnb pool target cost weight tries =
    some (selected, strategy)) :
    (BnbTarget.best ⟨target, cost, weight, tries⟩ pool).bestSelection = selected ∧
      selected ≠ [] ∧ strategy = .bnb := by
  simp only [selectCoinsBnb] at h
  split_ifs at h with hempty
  simp only [Option.some.injEq, Prod.mk.injEq] at h
  refine ⟨h.1, ?_, h.2.symm⟩
  rw [← h.1]
  exact fun hnil => hempty (List.isEmpty_iff.mpr hnil)

/-- The knapsack search has found something that is better than the lowest larger coin. -/
def Knapsack.SearchWins (k : Knapsack) (target maxWeight : ℕ) : Prop :=
  target ≤ u64 (k.applicable.map ScoredUtxo.effectiveValue).sum ∧
    (knapsackBest k.applicable target maxWeight).bestSelection ≠ [] ∧
    ∀ larger, k.lowestLarger = some larger → larger.utxo.inputVbytes ≤ maxWeight →
      (knapsackBest k.applicable target maxWeight).best < larger.effectiveValue

variable {k : Knapsack}

lemma selectCoinsKnapsack_exact {x : ScoredUtxo} (hk : Knapsack.fill pool target change weight = k)
    (hx : k.bestExact = some x) :
    selectCoinsKnapsack pool target change weight = some ([x.utxo], .knapsack) := by
  have hfill : pool.foldl (Knapsack.put target change weight) ⟨[], none, none⟩ = k := hk
  simp only [selectCoinsKnapsack, hfill, hx]

lemma selectCoinsKnapsack_search (hk : Knapsack.fill pool target change weight = k)
    (hexact : k.bestExact = none) (hwins : k.SearchWins target weight) :
    selectCoinsKnapsack pool target change weight =
      some ((knapsackBest k.applicable target weight).bestSelection, .knapsack) := by
  have hfill : pool.foldl (Knapsack.put target change weight) ⟨[], none, none⟩ = k := hk
  obtain ⟨hreach, hne, hless⟩ := hwins
  rw [knapsackBest] at hne
  simp only [selectCoinsKnapsack, hfill, hexact, if_neg (not_lt.mpr hreach), List.isEmpty_iff,
    if_neg hne]
  split
  case h_1 larger hlarger =>
    refine if_neg fun hlight => ?_
    exact absurd (hless larger hlarger hlight.1) (not_lt.mpr hlight.2)
  case h_2 => rfl

lemma selectCoinsKnapsack_single (hk : Knapsack.fill pool target change weight = k)
    (hexact : k.bestExact = none) (hwins : ¬ k.SearchWins target weight) :
    selectCoinsKnapsack pool target change weight = k.single weight := by
  have hfill : pool.foldl (Knapsack.put target change weight) ⟨[], none, none⟩ = k := hk
  simp only [selectCoinsKnapsack, hfill, hexact]
  split_ifs with hlow hempty
  · rfl
  · rfl
  · -- the search has found something, so it is the larger coin that wins
    have hlarger : ∃ larger, k.lowestLarger = some larger ∧ larger.utxo.inputVbytes ≤ weight ∧
        larger.effectiveValue ≤ (knapsackBest k.applicable target weight).best := by
      by_contra hnone
      refine hwins ⟨not_lt.mp hlow, fun hnil => hempty (List.isEmpty_iff.mpr hnil), ?_⟩
      exact fun larger hlarger hlight => not_le.mp fun hle => hnone ⟨larger, hlarger, hlight, hle⟩
    obtain ⟨larger, hlarger, hlight, hle⟩ := hlarger
    have hcond : larger.utxo.inputVbytes ≤ weight ∧ larger.effectiveValue ≤ (knapsackDfs target weight
        knapsackTries (k.applicable.insertionSort ScoredUtxo.knapsackOrder) [] 0 0 .start).best :=
      ⟨hlight, hle⟩
    simp [hlarger, hcond, Knapsack.single, Option.filter]

lemma Knapsack.single_eq_some : k.single weight = some (selected, strategy) ↔
    ∃ x, k.lowestLarger = some x ∧ x.utxo.inputVbytes ≤ weight ∧ [x.utxo] = selected ∧
      SelectionStrategy.knapsack = strategy := by
  simp only [Knapsack.single, Option.map_eq_some_iff, Option.filter_eq_some_iff,
    decide_eq_true_eq, Prod.mk.injEq, and_assoc]

/-- The knapsack returns a coin that it kept, or what its search has found. -/
lemma selectCoinsKnapsack_eq_some (hk : Knapsack.fill pool target change weight = k)
    (h : selectCoinsKnapsack pool target change weight = some (selected, strategy)) :
    strategy = .knapsack ∧
      ((∃ x, k.bestExact = some x ∧ selected = [x.utxo]) ∨
        (∃ x, k.lowestLarger = some x ∧ x.utxo.inputVbytes ≤ weight ∧ selected = [x.utxo]) ∨
        (k.bestExact = none ∧ k.SearchWins target weight ∧
          selected = (knapsackBest k.applicable target weight).bestSelection)) := by
  cases hexact : k.bestExact with
  | some x =>
      rw [selectCoinsKnapsack_exact hk hexact, Option.some.injEq, Prod.mk.injEq] at h
      exact ⟨h.2.symm, .inl ⟨x, rfl, h.1.symm⟩⟩
  | none =>
      by_cases hwins : k.SearchWins target weight
      · rw [selectCoinsKnapsack_search hk hexact hwins, Option.some.injEq, Prod.mk.injEq] at h
        exact ⟨h.2.symm, .inr (.inr ⟨rfl, hwins, h.1.symm⟩)⟩
      · rw [selectCoinsKnapsack_single hk hexact hwins, Knapsack.single_eq_some] at h
        obtain ⟨x, hx, hlight, hselected, hstrategy⟩ := h
        exact ⟨hstrategy.symm, .inr (.inl ⟨x, hx, hlight, hselected.symm⟩)⟩

/-- What is selected is what branch and bound returns, or else what the knapsack does. -/
lemma selectCoins_eq_some (h : selectCoins pool target cost weight tries change =
    some (selected, strategy)) :
    selectCoinsBnb pool target cost weight tries = some (selected, strategy) ∨
      selectCoinsBnb pool target cost weight tries = none ∧
        selectCoinsKnapsack pool target change weight = some (selected, strategy) := by
  rw [selectCoins] at h
  split at h
  case h_1 found hfound => exact .inl (hfound.trans h)
  case h_2 hnone => exact .inr ⟨hnone, h⟩

/-- **Only coins of the pool are selected**, and none of them twice. -/
lemma selectCoins_subperm (h : selectCoins pool target cost weight tries change =
    some (selected, strategy)) :
    ∃ chosen : List ScoredUtxo, selected = chosen.map ScoredUtxo.utxo ∧ chosen.Subperm pool := by
  have hsorted : ∀ {sorted coins : List ScoredUtxo} {search : Search}, sorted.Perm coins →
      search.Found (fun chosen _ => chosen.Sublist sorted) → search.bestSelection = selected →
      selected ≠ [] →
      ∃ chosen : List ScoredUtxo, selected = chosen.map ScoredUtxo.utxo ∧ chosen.Subperm coins := by
    rintro sorted coins search hperm (hfound | ⟨-, chosen, hsub, hchosen⟩) rfl hne
    · exact absurd hfound.1 hne
    · exact ⟨chosen, hchosen, hsub.subperm.trans hperm.subperm⟩
  rcases selectCoins_eq_some h with hbnb | ⟨-, hknapsack⟩
  · obtain ⟨hbest, hne, -⟩ := selectCoinsBnb_eq_some hbnb
    refine hsorted (List.perm_insertionSort ScoredUtxo.bnbOrder pool)
      (BnbTarget.dfs_found _ (descends_sublist rfl _) ?_ (.refl _)) hbest hne
    exact fun rest a search hnode _ _ _ _ _ => sublist_of_node hnode
  · rcases (selectCoinsKnapsack_eq_some rfl hknapsack).2 with ⟨x, hx, rfl⟩ | ⟨x, hx, -, rfl⟩ |
      ⟨-, hwins, rfl⟩
    · exact ⟨[x], rfl, List.singleton_subperm_iff.mpr (Knapsack.fill_bestExact hx).1⟩
    · exact ⟨[x], rfl, List.singleton_subperm_iff.mpr (Knapsack.fill_lowestLarger hx).1.1⟩
    · obtain ⟨chosen, hchosen, hsub⟩ := hsorted (List.perm_insertionSort ScoredUtxo.knapsackOrder _)
        (knapsackDfs_found (descends_sublist rfl _)
          (fun rest a search hnode _ _ _ => sublist_of_node hnode) (.refl _)) rfl hwins.2.1
      exact ⟨chosen, hchosen, hsub.trans (Knapsack.fill_sublist target change weight pool).subperm⟩

/-- What the coins of the pool have in common, the selected ones have. -/
lemma selectCoins_holds {P : UtxoInfoWithSize → Prop}
    (h : selectCoins pool target cost weight tries change = some (selected, strategy))
    (hpool : ∀ x ∈ pool, P x.utxo) : ∀ x ∈ selected, P x := by
  obtain ⟨chosen, rfl, hsub⟩ := selectCoins_subperm h
  intro x hx
  obtain ⟨y, hy, rfl⟩ := List.mem_map.mp hx
  exact hpool y (hsub.subset hy)

end Selected

end BifrostNode.Btc
