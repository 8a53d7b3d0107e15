import BifrostNode.Btc.Exact

/-!
# What a selection is worth

Both searches stop wherever nothing better can be below: the rest does not reach the target, the selection
is already too much or too heavy, it is enough, or nothing can be better than what was found.

**Soundness.**  Without overflow, what is selected covers the target and is not too heavy
(`selection_sound`).

**Optimality.**  A search that is not cut short by its budget has seen the best selection, up to the score
that it starts from (`bnb_optimal`, `knapsack_optimal`).

**The first branch** takes coin after coin until the target is reached, so that coins that cover it are
enough for a selection, whatever the budget.
-/

namespace BifrostNode.Btc

/-! ## Nodes -/

/-- A node of a search: its sums are those of the coins taken so far, and `E` says that the sums below it
do not overflow. -/
structure Node (E : List ScoredUtxo → List ScoredUtxo → ℕ → ℕ → Search → Prop)
    (all rest : List ScoredUtxo) (a : Taken) (search : Search) : Prop where
  sublist : (a.selection ++ rest).Sublist all
  value : a.value = totalValue a.selection
  weight : a.weight = totalWeight a.selection
  fits : E rest a.selection a.value a.weight search

lemma Node.start {E : List ScoredUtxo → List ScoredUtxo → ℕ → ℕ → Search → Prop}
    {all : List ScoredUtxo} (h : E all [] 0 0 .start) : Node E all all .start .start where
  sublist := .refl _
  value := rfl
  weight := rfl
  fits := h

lemma Node.descends {E : List ScoredUtxo → List ScoredUtxo → ℕ → ℕ → Search → Prop}
    {p : SublistSearch ScoredUtxo Taken Search} (htake : p.take = Taken.take) (all : List ScoredUtxo)
    (hE : ∀ x rest (a : Taken) search, E (x :: rest) a.selection a.value a.weight search →
      (p.visit (x :: rest) a search).2 = true →
      a.value + x.effectiveValue < 2 ^ 64 ∧ a.weight + x.utxo.inputVbytes < 2 ^ 64 ∧
        E rest (a.take x).selection (a.take x).value (a.take x).weight
          (p.visit (x :: rest) a search).1 ∧
        E rest a.selection a.value a.weight
          (p.run rest (a.take x) (p.visit (x :: rest) a search).1)) :
    p.Descends (Node E all) := by
  refine ⟨fun x rest a search h hgo => ?_, fun x rest a search h hgo => ?_⟩
  · obtain ⟨hvalue, hweight, hwith, -⟩ := hE x rest a search h.fits hgo
    rw [htake]
    refine ⟨?_, ?_, ?_, hwith⟩
    · rw [Taken.take, List.append_assoc]
      exact h.sublist
    · rw [Taken.take, u64_of_lt hvalue, totalValue_snoc, h.value]
    · rw [Taken.take, u64_of_lt hweight, totalWeight_snoc, h.weight]
  · obtain ⟨-, -, -, hwithout⟩ := hE x rest a search h.fits hgo
    rw [htake]
    exact ⟨((List.sublist_cons_self x rest).append_left a.selection).trans h.sublist, h.value,
      h.weight, hwithout⟩

lemma BnbTarget.node_descends (t : BnbTarget) (all : List ScoredUtxo) :
    t.search.Descends (Node t.DfsExact all) := by
  refine Node.descends rfl all fun x rest a search hfits hgo => ?_
  obtain ⟨hvalue, hweight, hnext⟩ := hfits.2 hgo
  obtain ⟨hwith, hwithout⟩ := hnext _ rfl
  have hrun := t.dfs_eq_run rest (a.take x) (t.search.visit (x :: rest) a search).1
  simp only [Taken.take, u64_of_lt hvalue, u64_of_lt hweight] at hrun ⊢
  rw [← hrun]
  exact ⟨hvalue, hweight, hwith, hwithout⟩

lemma knapsack_node_descends (target maxWeight maxTries : ℕ) (all : List ScoredUtxo) :
    (knapsackSearch target maxWeight maxTries).Descends
      (Node (KnapsackDfsExact target maxWeight maxTries) all) := by
  refine Node.descends rfl all fun x rest a search hfits hgo => ?_
  obtain ⟨hvalue, hweight, hnext⟩ := hfits.2 hgo
  obtain ⟨hwith, hwithout⟩ := hnext _ rfl
  have hrun := knapsackDfs_eq_run target maxWeight maxTries rest (a.take x)
    ((knapsackSearch target maxWeight maxTries).visit (x :: rest) a search).1
  simp only [Taken.take, u64_of_lt hvalue, u64_of_lt hweight] at hrun ⊢
  rw [← hrun]
  exact ⟨hvalue, hweight, hwith, hwithout⟩

/-! ## Soundness -/

namespace BnbTarget

/-- What branch and bound looks for. -/
structure Matches (t : BnbTarget) (chosen : List ScoredUtxo) : Prop where
  enough : t.target ≤ totalValue chosen
  within : totalValue chosen ≤ t.target + t.costOfChange
  light : totalWeight chosen ≤ t.maxSelectionWeight

/-- What a selection wastes: what it is worth beyond the target, and the excess fees. -/
def waste (t : BnbTarget) (chosen : List ScoredUtxo) : ℕ :=
  totalValue chosen - t.target + totalExcess chosen

/-- **Branch and bound records what it looks for**, with its waste. -/
lemma best_found (t : BnbTarget) {pool : List ScoredUtxo}
    (hfits : t.DfsExact (pool.insertionSort ScoredUtxo.bnbOrder) [] 0 0 .start) :
    (t.best pool).Found fun chosen score =>
      chosen.Subperm pool ∧ t.Matches chosen ∧ score = t.waste chosen := by
  refine t.dfs_found (t.node_descends _) ?_ (Node.start hfits)
  intro rest a search hnode htries hreach hover hlight henough
  obtain ⟨hsum, hcost⟩ := hnode.fits.visit htries
  rw [u64_of_lt hsum] at hreach
  obtain ⟨hrange, hwaste⟩ := hcost hreach
  rw [u64_of_lt hrange] at hover
  have hexact := hwaste hover hlight henough
  have hexcess : u64 (a.selection.map ScoredUtxo.excessFee).sum = totalExcess a.selection := by
    refine u64_of_lt (n := totalExcess a.selection) ?_
    omega
  refine ⟨?_, ⟨hnode.value ▸ henough, hnode.value ▸ hover, hnode.weight ▸ hlight⟩, ?_⟩
  · exact (sublist_of_node hnode.sublist).subperm.trans (List.perm_insertionSort _ pool).subperm
  · rw [hexcess, u64_of_lt hexact, hnode.value, waste]

end BnbTarget

/-- The knapsack search records what covers the target. -/
lemma knapsackBest_found {applicable : List ScoredUtxo} {target maxWeight : ℕ}
    (hfits : KnapsackDfsExact target maxWeight knapsackTries
      (applicable.insertionSort ScoredUtxo.knapsackOrder) [] 0 0 .start) :
    (knapsackBest applicable target maxWeight).Found fun chosen score =>
      chosen.Subperm applicable ∧ target ≤ totalValue chosen ∧ totalWeight chosen ≤ maxWeight ∧
        score = totalValue chosen := by
  refine knapsackDfs_found (knapsack_node_descends target maxWeight knapsackTries _) ?_
    (Node.start hfits)
  intro rest a search hnode htries hlight henough
  refine ⟨?_, hnode.value ▸ henough, hnode.weight ▸ hlight, hnode.value⟩
  exact (sublist_of_node hnode.sublist).subperm.trans
    (List.perm_insertionSort _ applicable).subperm

section Selected

variable {pool : List ScoredUtxo} {target cost weight tries change : ℕ}
  {selected : List UtxoInfoWithSize} {strategy : SelectionStrategy}

/-- **What branch and bound selects** comes from the pool, matches the target and has the best waste found. -/
lemma selectCoinsBnb_sound
    (hfits : (⟨target, cost, weight, tries⟩ : BnbTarget).DfsExact
      (pool.insertionSort ScoredUtxo.bnbOrder) [] 0 0 .start)
    (h : selectCoinsBnb pool target cost weight tries = some (selected, strategy)) :
    ∃ chosen : List ScoredUtxo, chosen.Subperm pool ∧ selected = chosen.map ScoredUtxo.utxo ∧
      (⟨target, cost, weight, tries⟩ : BnbTarget).Matches chosen ∧
      (BnbTarget.best ⟨target, cost, weight, tries⟩ pool).best =
        (⟨target, cost, weight, tries⟩ : BnbTarget).waste chosen := by
  obtain ⟨hbest, hne, -⟩ := selectCoinsBnb_eq_some h
  rcases BnbTarget.best_found _ hfits with ⟨hnil, -⟩ | ⟨-, chosen, ⟨hsub, hmatches, hscore⟩, hchosen⟩
  · exact absurd (hbest.symm.trans hnil) hne
  · exact ⟨chosen, hsub, hbest.symm.trans hchosen, hmatches, hscore⟩

/-- A larger coin covers the target. -/
lemma KnapsackExact.larger_enough (hfits : KnapsackExact pool target change weight) {x : ScoredUtxo}
    (hx : x ∈ pool) (hlarger : x.IsLarger target change weight) : target ≤ x.effectiveValue := by
  have hrange := hfits.1 (List.ne_nil_of_mem hx)
  have hle := hlarger.2
  rw [u64_of_lt hrange] at hle
  omega

/-- **What the knapsack selects** comes from the pool, covers the target and is not too heavy. -/
lemma selectCoinsKnapsack_sound (hfits : KnapsackExact pool target change weight)
    (h : selectCoinsKnapsack pool target change weight = some (selected, strategy)) :
    ∃ chosen : List ScoredUtxo, chosen.Subperm pool ∧ selected = chosen.map ScoredUtxo.utxo ∧
      target ≤ totalValue chosen ∧ totalWeight chosen ≤ weight := by
  have hone : ∀ x : ScoredUtxo, x ∈ pool → target ≤ x.effectiveValue → x.utxo.inputVbytes ≤ weight →
      ∃ chosen : List ScoredUtxo, chosen.Subperm pool ∧ [x.utxo] = chosen.map ScoredUtxo.utxo ∧
        target ≤ totalValue chosen ∧ totalWeight chosen ≤ weight := by
    intro x hx henough hlight
    refine ⟨[x], List.singleton_subperm_iff.mpr hx, rfl, ?_, ?_⟩
    · simpa [totalValue] using henough
    · simpa [totalWeight] using hlight
  rcases (selectCoinsKnapsack_eq_some rfl h).2 with ⟨x, hx, rfl⟩ | ⟨x, hx, hlight, rfl⟩ |
    ⟨hexact, ⟨hreach, hne, -⟩, rfl⟩
  · obtain ⟨hmem, henough, -, hlight⟩ := Knapsack.fill_bestExact hx
    exact hone x hmem henough hlight
  · obtain ⟨⟨hmem, hlarger⟩, -⟩ := Knapsack.fill_lowestLarger hx
    exact hone x hmem (hfits.larger_enough hmem hlarger) hlight
  · obtain ⟨hsmall, hdfs⟩ := hfits.2 _ rfl hexact
    have hsum : target ≤ totalValue (Knapsack.fill pool target change weight).applicable := by
      rwa [← u64_of_lt hsmall]
    rcases knapsackBest_found (hdfs hsum) with ⟨hnil, -⟩ | ⟨-, chosen, ⟨hsub, henough, hlight, -⟩, hchosen⟩
    · exact absurd hnil hne
    · exact ⟨chosen, hsub.trans (Knapsack.fill_sublist target change weight pool).subperm, hchosen,
        henough, hlight⟩

/-- **Soundness.**  While no sum overflows, what is selected is part of the pool, none of it twice.  It
covers the target and is not too heavy, and branch and bound does not go beyond the cost of change. -/
theorem selection_sound (hfits : SelectExact pool target cost weight tries change)
    (h : selectCoins pool target cost weight tries change = some (selected, strategy)) :
    ∃ chosen : List ScoredUtxo, chosen.Subperm pool ∧ selected = chosen.map ScoredUtxo.utxo ∧
      target ≤ totalValue chosen ∧ totalWeight chosen ≤ weight ∧
      (strategy = .bnb → totalValue chosen ≤ target + cost) := by
  rcases selectCoins_eq_some h with hbnb | ⟨hnone, hknapsack⟩
  · obtain ⟨chosen, hsub, hselected, hmatches, -⟩ := selectCoinsBnb_sound hfits.1 hbnb
    exact ⟨chosen, hsub, hselected, hmatches.enough, hmatches.light, fun _ => hmatches.within⟩
  · obtain ⟨hstrategy, -⟩ := selectCoinsKnapsack_eq_some rfl hknapsack
    obtain ⟨chosen, hsub, hselected, henough, hlight⟩ :=
      selectCoinsKnapsack_sound (hfits.2 hnone) hknapsack
    refine ⟨chosen, hsub, hselected, henough, hlight, fun hbnb => ?_⟩
    rw [hstrategy] at hbnb
    cases hbnb

end Selected

/-- A coin that costs nothing to spend. -/
def plainCoin (value : ℕ) : ScoredUtxo := ⟨⟨0, 0, 0, value, [], 1⟩, 0, 0, value⟩

/-- A coin that costs a satoshi a byte now, and nothing later. -/
def dearCoin (value fee : ℕ) : ScoredUtxo := ⟨⟨0, 0, 0, value + fee, [], fee⟩, fee, 0, value⟩

theorem selection_sound_two : ∃ chosen : List ScoredUtxo, chosen.Subperm [plainCoin 5, plainCoin 7] ∧
    [(plainCoin 7).utxo] = chosen.map ScoredUtxo.utxo ∧ 6 ≤ totalValue chosen ∧
    totalWeight chosen ≤ 10 ∧ (SelectionStrategy.bnb = .bnb → totalValue chosen ≤ 6 + 1) := by
  have hfits : SelectExact [plainCoin 5, plainCoin 7] 6 1 10 8 3 :=
    (selectExact_iff (by decide) (by decide) (by decide)).mpr
      ⟨fun _ => by decide, fun _ _ => by decide⟩
  exact selection_sound hfits (by decide +kernel)

/-! ## Optimality -/

lemma Search.record_best_le (search : Search) (selection : List ScoredUtxo) (score : ℕ) :
    (search.record selection score).best ≤ search.best ∧
      (search.record selection score).best ≤ score := by
  rw [Search.record]
  split_ifs with hbetter
  · exact ⟨hbetter.le, le_refl _⟩
  · exact ⟨le_refl _, not_lt.mp hbetter⟩

lemma Search.record_tries (search : Search) (selection : List ScoredUtxo) (score : ℕ) :
    (search.record selection score).tries = search.tries := by
  rw [Search.record]
  split_ifs <;> rfl

/-- The rest does not reach the target, not even with all of it. -/
lemma reach_of_suffixSum {rest d : List ScoredUtxo} {value target : ℕ} (htarget : target < 2 ^ 64)
    (hsum : value + suffixSum rest < 2 ^ 64) (hlow : u64 (value + suffixSum rest) < target)
    (hd : d.Sublist rest) : value + totalValue d < target := by
  have hle : totalValue d ≤ totalValue rest :=
    sum_le_of_subperm hd.subperm ScoredUtxo.effectiveValue
  rw [u64_of_lt hsum, suffixSum_eq_min] at hlow
  rw [suffixSum_eq_min] at hsum
  omega

lemma totalValue_append (pool pool' : List ScoredUtxo) :
    totalValue (pool ++ pool') = totalValue pool + totalValue pool' := by
  simp [totalValue]

lemma totalExcess_append (pool pool' : List ScoredUtxo) :
    totalExcess (pool ++ pool') = totalExcess pool + totalExcess pool' := by
  simp [totalExcess]

lemma totalWeight_append (pool pool' : List ScoredUtxo) :
    totalWeight (pool ++ pool') = totalWeight pool + totalWeight pool' := by
  simp [totalWeight]

namespace BnbTarget

variable {t : BnbTarget} {pool chosen : List ScoredUtxo}

lemma Matches.perm {chosen' : List ScoredUtxo} (h : t.Matches chosen) (hperm : chosen.Perm chosen') :
    t.Matches chosen' := by
  refine ⟨?_, ?_, ?_⟩
  · exact totalValue_perm hperm ▸ h.enough
  · exact totalValue_perm hperm ▸ h.within
  · exact totalWeight_perm hperm ▸ h.light

lemma waste_perm {chosen' : List ScoredUtxo} (hperm : chosen.Perm chosen') :
    t.waste chosen = t.waste chosen' := by
  rw [waste, waste, totalValue_perm hperm, totalExcess_perm hperm]

lemma visit_best_le (rest : List ScoredUtxo) (a : Taken) (search : Search) :
    (t.search.visit rest a search).1.best ≤ search.best := by
  simp only [BnbTarget.search, BnbTarget.visit]
  split_ifs
  · exact le_refl _
  · exact le_refl _
  · exact le_refl _
  · exact le_refl _
  · exact (search.next.record_best_le _ _).1
  · exact le_refl _

lemma visit_tries (rest : List ScoredUtxo) (a : Taken) (search : Search) :
    search.tries ≤ (t.search.visit rest a search).1.tries ∧
      (t.search.visit rest a search).1.tries ≤ search.tries + 1 := by
  have hnext : search.tries ≤ search.next.tries ∧ search.next.tries ≤ search.tries + 1 :=
    ⟨Nat.le_succ _, le_refl _⟩
  simp only [BnbTarget.search, BnbTarget.visit]
  split_ifs
  · exact ⟨le_refl _, Nat.le_succ _⟩
  · exact hnext
  · exact hnext
  · exact hnext
  · rw [Search.record_tries]
    exact hnext
  · exact hnext

/-- Where branch and bound stops, nothing below wastes less than what was found. -/
lemma visit_covers (htarget : t.target < 2 ^ 64) {all rest : List ScoredUtxo} {a : Taken}
    {search : Search} (hnode : Node t.DfsExact all rest a search) (htries : search.tries < t.maxTries)
    (hstop : (t.search.visit rest a search).2 = false ∨ rest = []) {d : List ScoredUtxo}
    (hd : d.Sublist rest) (hmatches : t.Matches (a.selection ++ d)) :
    (t.search.visit rest a search).1.best ≤ t.waste (a.selection ++ d) := by
  obtain ⟨hsum, hcost⟩ := hnode.fits.visit htries
  obtain ⟨hmost, hleast, hlight⟩ := hmatches
  have hd_empty : rest = [] → totalValue d = 0 := by
    rintro rfl
    rw [List.sublist_nil.mp hd]
    rfl
  rw [totalValue_append, ← hnode.value] at hmost hleast
  rw [totalWeight_append, ← hnode.weight] at hlight
  simp only [BnbTarget.search, BnbTarget.visit, waste, totalValue_append, totalExcess_append,
    ← hnode.value] at hstop ⊢
  split_ifs at hstop ⊢ with hspent hreach hover hheavy henough
  · omega
  · have hlow := reach_of_suffixSum htarget hsum hreach hd
    omega
  · rw [u64_of_lt hsum] at hreach
    rw [u64_of_lt (hcost (not_lt.mp hreach)).1] at hover
    omega
  · omega
  · rw [u64_of_lt hsum] at hreach
    obtain ⟨hrange, hwaste⟩ := hcost (not_lt.mp hreach)
    rw [u64_of_lt hrange] at hover
    have hexact := hwaste (not_lt.mp hover) (not_lt.mp hheavy) henough
    have hexcess : u64 (a.selection.map ScoredUtxo.excessFee).sum = totalExcess a.selection := by
      refine u64_of_lt (n := totalExcess a.selection) ?_
      omega
    refine (search.next.record_best_le _ _).2.trans ?_
    rw [hexcess, u64_of_lt hexact]
    omega
  · rcases hstop with hzero | hrest
    · have hbest : search.best = 0 := by simpa using hzero
      exact hbest.le.trans (Nat.zero_le _)
    · -- nothing is left to take, and it is not enough yet
      have hnone := hd_empty hrest
      omega

/-- Nothing that branch and bound looks for wastes less than what it finds. -/
lemma best_le_waste (htarget : t.target < 2 ^ 64)
    (hfits : t.DfsExact (pool.insertionSort ScoredUtxo.bnbOrder) [] 0 0 .start)
    (htries : (t.best pool).tries < t.maxTries) (hsub : chosen.Subperm pool)
    (hmatches : t.Matches chosen) : (t.best pool).best ≤ t.waste chosen := by
  have hrun : t.best pool = t.search.run (pool.insertionSort ScoredUtxo.bnbOrder) .start .start :=
    t.dfs_eq_run _ .start .start
  obtain ⟨d, hperm, hd⟩ := hsub.trans (List.perm_insertionSort ScoredUtxo.bnbOrder pool).symm.subperm
  rw [hrun] at htries ⊢
  rw [waste_perm hperm.symm]
  have hcovers := SublistSearch.run_covers (fun (a : Taken) d => a.selection ++ d) t.Matches
    (fun search c => search.best ≤ t.waste c) (fun search => search.tries < t.maxTries)
    (t.node_descends (pool.insertionSort ScoredUtxo.bnbOrder))
    (fun a x d => List.append_assoc a.selection [x] d)
    (fun rest a search c h => (visit_best_le rest a search).trans h)
    (fun rest a search h => (visit_tries rest a search).1.trans_lt h)
    (fun rest a search hnode halive hstop d hd hgood =>
      visit_covers htarget hnode halive hstop hd hgood)
  exact hcovers _ _ _ (Node.start hfits) htries d hd (hmatches.perm hperm.symm)

/-- A budget that is more than the nodes of all sublists is not exhausted. -/
lemma best_tries_lt (h : 2 ^ (pool.length + 1) ≤ t.maxTries) :
    (t.best pool).tries < t.maxTries := by
  have hrun : t.best pool = t.search.run (pool.insertionSort ScoredUtxo.bnbOrder) .start .start :=
    t.dfs_eq_run _ .start .start
  have hcount := SublistSearch.run_count Search.tries
    (fun rest a search => (visit_tries (t := t) rest a search).2)
    (pool.insertionSort ScoredUtxo.bnbOrder) .start .start
  rw [← hrun, List.length_insertionSort] at hcount
  have hstart : Search.start.tries = 0 := rfl
  omega

end BnbTarget

/-- **Branch and bound is optimal**, with a budget that it does not exhaust.  It selects something if there
is a selection that wastes less than the greatest `u64`, from which the search starts, and what it selects
wastes the least. -/
theorem bnb_optimal {pool : List ScoredUtxo} {t : BnbTarget} (htarget : 0 < t.target)
    (hword : t.target < 2 ^ 64)
    (hfits : t.DfsExact (pool.insertionSort ScoredUtxo.bnbOrder) [] 0 0 .start)
    (htries : (t.best pool).tries < t.maxTries) :
    (selectCoinsBnb pool t.target t.costOfChange t.maxSelectionWeight t.maxTries = none ↔
      ∀ chosen : List ScoredUtxo, chosen.Subperm pool → t.Matches chosen →
        2 ^ 64 - 1 ≤ t.waste chosen) ∧
    ∀ selected strategy,
      selectCoinsBnb pool t.target t.costOfChange t.maxSelectionWeight t.maxTries =
        some (selected, strategy) →
      ∃ chosen : List ScoredUtxo, chosen.Subperm pool ∧ selected = chosen.map ScoredUtxo.utxo ∧
        t.Matches chosen ∧ ∀ other : List ScoredUtxo, other.Subperm pool → t.Matches other →
          t.waste chosen ≤ t.waste other := by
  have hleast : ∀ other : List ScoredUtxo, other.Subperm pool → t.Matches other →
      (t.best pool).best ≤ t.waste other := fun other hsub hmatches =>
    BnbTarget.best_le_waste hword hfits htries hsub hmatches
  refine ⟨?_, fun selected strategy h => ?_⟩
  · rw [selectCoinsBnb_eq_none]
    rcases t.best_found hfits with ⟨hnil, hbest⟩ | ⟨hbest, chosen, ⟨hsub, hmatches, hscore⟩, hchosen⟩
    · refine ⟨fun _ other hsub hmatches => ?_, fun _ => hnil⟩
      exact hbest.symm.le.trans (hleast other hsub hmatches)
    · refine ⟨fun hnil => ?_, fun hnone => ?_⟩
      · rw [hnil, eq_comm, List.map_eq_nil_iff] at hchosen
        have henough := hmatches.enough
        rw [hchosen] at henough
        exact absurd htarget (not_lt.mpr henough)
      · have hwaste := hnone chosen hsub hmatches
        omega
  · obtain ⟨chosen, hsub, hselected, hmatches, hscore⟩ := selectCoinsBnb_sound hfits h
    refine ⟨chosen, hsub, hselected, hmatches, fun other hother hmatch => ?_⟩
    exact hscore.symm.le.trans (hleast other hother hmatch)

theorem bnb_optimal_two : ∃ chosen : List ScoredUtxo,
    chosen.Subperm [plainCoin 5, plainCoin 7] ∧ [(plainCoin 7).utxo] = chosen.map ScoredUtxo.utxo ∧
      (⟨6, 1, 10, 8⟩ : BnbTarget).Matches chosen ∧
      ∀ other : List ScoredUtxo, other.Subperm [plainCoin 5, plainCoin 7] →
        (⟨6, 1, 10, 8⟩ : BnbTarget).Matches other →
        (⟨6, 1, 10, 8⟩ : BnbTarget).waste chosen ≤ (⟨6, 1, 10, 8⟩ : BnbTarget).waste other := by
  have hfits : SelectExact [plainCoin 5, plainCoin 7] 6 1 10 8 3 :=
    (selectExact_iff (by decide) (by decide) (by decide)).mpr
      ⟨fun _ => by decide, fun _ _ => by decide⟩
  exact (bnb_optimal (t := ⟨6, 1, 10, 8⟩) (by decide) (by decide) hfits.1
    (BnbTarget.best_tries_lt (by decide))).2 _ .bnb (by decide +kernel)

/-- Two coins together are exactly what is looked for, but they waste as much as the search starts from,
and nothing is selected. -/
theorem bnb_misses :
    (⟨2, 0, 2 ^ 64 - 1, 8⟩ : BnbTarget).DfsExact
      ([dearCoin 1 (2 ^ 63 - 1), dearCoin 1 (2 ^ 63)].insertionSort ScoredUtxo.bnbOrder) [] 0 0 .start ∧
    2 ^ ([dearCoin 1 (2 ^ 63 - 1), dearCoin 1 (2 ^ 63)].length + 1) ≤ 8 ∧
    ¬ (selectCoinsBnb [dearCoin 1 (2 ^ 63 - 1), dearCoin 1 (2 ^ 63)] 2 0 (2 ^ 64 - 1) 8 = none ↔
      ¬ ∃ chosen : List ScoredUtxo,
        chosen.Subperm [dearCoin 1 (2 ^ 63 - 1), dearCoin 1 (2 ^ 63)] ∧
        (⟨2, 0, 2 ^ 64 - 1, 8⟩ : BnbTarget).Matches chosen) := by
  refine ⟨?_, by decide, fun h => ?_⟩
  · have hsort : [dearCoin 1 (2 ^ 63 - 1), dearCoin 1 (2 ^ 63)].insertionSort ScoredUtxo.bnbOrder =
        [dearCoin 1 (2 ^ 63 - 1), dearCoin 1 (2 ^ 63)] := by decide +kernel
    rw [hsort]
    refine ⟨fun _ => by decide +kernel, fun _ => ⟨by decide +kernel, by decide +kernel, ?_⟩⟩
    rintro _ rfl
    refine ⟨⟨fun _ => by decide +kernel, fun _ => ⟨by decide +kernel, by decide +kernel, ?_⟩⟩,
      ⟨fun _ => by decide +kernel, fun _ => ⟨by decide +kernel, by decide +kernel, ?_⟩⟩⟩
    · rintro _ rfl
      exact ⟨fun _ => by decide +kernel, fun _ => by decide +kernel⟩
    · rintro _ rfl
      exact ⟨fun _ => by decide +kernel, fun _ => by decide +kernel⟩
  · have hnone : selectCoinsBnb [dearCoin 1 (2 ^ 63 - 1), dearCoin 1 (2 ^ 63)] 2 0 (2 ^ 64 - 1) 8 =
        none := by decide +kernel
    exact h.mp hnone ⟨_, .refl _, by decide +kernel, by decide +kernel, by decide +kernel⟩

/-! ### The knapsack -/

section Knapsack

variable {target maxWeight maxTries changeTarget : ℕ} {pool chosen : List ScoredUtxo}

lemma knapsackVisit_best_le (rest : List ScoredUtxo) (a : Taken) (search : Search) :
    ((knapsackSearch target maxWeight maxTries).visit rest a search).1.best ≤ search.best := by
  simp only [knapsackSearch, knapsackVisit]
  split_ifs
  · exact le_refl _
  · exact le_refl _
  · exact le_refl _
  · exact (search.next.record_best_le _ _).1
  · exact le_refl _

variable (target maxWeight maxTries) in
lemma knapsackVisit_tries (rest : List ScoredUtxo) (a : Taken) (search : Search) :
    search.tries ≤ ((knapsackSearch target maxWeight maxTries).visit rest a search).1.tries ∧
      ((knapsackSearch target maxWeight maxTries).visit rest a search).1.tries ≤
        search.tries + 1 := by
  have hnext : search.tries ≤ search.next.tries ∧ search.next.tries ≤ search.tries + 1 :=
    ⟨Nat.le_succ _, le_refl _⟩
  simp only [knapsackSearch, knapsackVisit]
  split_ifs
  · exact ⟨le_refl _, Nat.le_succ _⟩
  · exact hnext
  · exact hnext
  · rw [Search.record_tries]
    exact hnext
  · exact hnext

/-- What a search that does not overflow says of its first node. -/
lemma KnapsackDfsExact.visit {selection : List ScoredUtxo} {value weight : ℕ} {search : Search}
    (h : KnapsackDfsExact target maxWeight maxTries pool selection value weight search)
    (htries : search.tries < maxTries) : value + suffixSum pool < 2 ^ 64 := by
  cases pool with
  | nil => exact h htries
  | cons x pool => exact h.1 htries

/-- Where the knapsack search stops, nothing below is closer to the target than what was found. -/
lemma knapsackVisit_covers (htarget : target < 2 ^ 64) {all rest : List ScoredUtxo} {a : Taken}
    {search : Search} (hnode : Node (KnapsackDfsExact target maxWeight maxTries) all rest a search)
    (htries : search.tries < maxTries)
    (hstop : ((knapsackSearch target maxWeight maxTries).visit rest a search).2 = false ∨ rest = [])
    {d : List ScoredUtxo} (hd : d.Sublist rest) (hmost : target ≤ totalValue (a.selection ++ d))
    (hlight : totalWeight (a.selection ++ d) ≤ maxWeight) :
    ((knapsackSearch target maxWeight maxTries).visit rest a search).1.best ≤
      totalValue (a.selection ++ d) := by
  have hsum := hnode.fits.visit htries
  have hd_empty : rest = [] → totalValue d = 0 := by
    rintro rfl
    rw [List.sublist_nil.mp hd]
    rfl
  rw [totalWeight_append, ← hnode.weight] at hlight
  simp only [knapsackSearch, knapsackVisit, totalValue_append, ← hnode.value] at hstop hmost ⊢
  split_ifs at hstop ⊢ with hspent hreach hheavy henough
  · omega
  · have hlow := reach_of_suffixSum htarget hsum hreach hd
    omega
  · omega
  · exact (search.next.record_best_le _ _).2.trans (Nat.le_add_right _ _)
  · rcases hstop with htight | hrest
    · have hbest : search.best = target := by simpa using htight
      exact hbest.le.trans hmost
    · have hnone := hd_empty hrest
      omega

/-- Nothing light that covers the target is closer to it than what the search finds. -/
lemma knapsackBest_le (htarget : target < 2 ^ 64)
    (hfits : KnapsackDfsExact target maxWeight knapsackTries
      (pool.insertionSort ScoredUtxo.knapsackOrder) [] 0 0 .start)
    (htries : (knapsackBest pool target maxWeight).tries < knapsackTries)
    (hsub : chosen.Subperm pool) (henough : target ≤ totalValue chosen)
    (hlight : totalWeight chosen ≤ maxWeight) :
    (knapsackBest pool target maxWeight).best ≤ totalValue chosen := by
  have hrun : knapsackBest pool target maxWeight = (knapsackSearch target maxWeight knapsackTries).run
      (pool.insertionSort ScoredUtxo.knapsackOrder) .start .start :=
    knapsackDfs_eq_run target maxWeight knapsackTries _ .start .start
  obtain ⟨d, hperm, hd⟩ :=
    hsub.trans (List.perm_insertionSort ScoredUtxo.knapsackOrder pool).symm.subperm
  rw [hrun] at htries ⊢
  rw [← totalValue_perm hperm] at henough ⊢
  rw [← totalWeight_perm hperm] at hlight
  have hcovers := SublistSearch.run_covers (fun (a : Taken) d => a.selection ++ d)
    (fun c => target ≤ totalValue c ∧ totalWeight c ≤ maxWeight)
    (fun search c => search.best ≤ totalValue c) (fun search => search.tries < knapsackTries)
    (knapsack_node_descends target maxWeight knapsackTries
      (pool.insertionSort ScoredUtxo.knapsackOrder))
    (fun a x d => List.append_assoc a.selection [x] d)
    (fun rest a search c h => (knapsackVisit_best_le rest a search).trans h)
    (fun rest a search h => (knapsackVisit_tries target maxWeight _ rest a search).1.trans_lt h)
    (fun rest a search hnode halive hstop d hd hgood =>
      knapsackVisit_covers htarget hnode halive hstop hd hgood.1 hgood.2)
  exact hcovers _ _ _ (Node.start hfits) htries d hd ⟨henough, hlight⟩

/-- A few coins are within the budget. -/
lemma knapsackBest_tries_lt (h : pool.length ≤ 15) :
    (knapsackBest pool target maxWeight).tries < knapsackTries := by
  have hrun : knapsackBest pool target maxWeight = (knapsackSearch target maxWeight knapsackTries).run
      (pool.insertionSort ScoredUtxo.knapsackOrder) .start .start :=
    knapsackDfs_eq_run target maxWeight knapsackTries _ .start .start
  have hcount := SublistSearch.run_count Search.tries
    (fun rest a search => (knapsackVisit_tries target maxWeight knapsackTries rest a search).2)
    (pool.insertionSort ScoredUtxo.knapsackOrder) .start .start
  rw [← hrun, List.length_insertionSort] at hcount
  have hpow : 2 ^ (pool.length + 1) ≤ 2 ^ 16 := Nat.pow_le_pow_right (by decide) (by omega)
  have hstart : Search.start.tries = 0 := rfl
  rw [knapsackTries]
  omega

/-- A selection of some of the pool that covers the target and is not too heavy. -/
structure Covers (pool : List ScoredUtxo) (target maxWeight : ℕ) (chosen : List ScoredUtxo) : Prop where
  nonempty : chosen ≠ []
  subperm : chosen.Subperm pool
  enough : target ≤ totalValue chosen
  light : totalWeight chosen ≤ maxWeight

lemma effectiveValue_le_total {x : ScoredUtxo} (hx : x ∈ chosen) :
    x.effectiveValue ≤ totalValue chosen :=
  List.single_le_sum (fun _ _ => Nat.zero_le _) _ (List.mem_map_of_mem hx)

lemma inputVbytes_le_total {x : ScoredUtxo} (hx : x ∈ chosen) :
    x.utxo.inputVbytes ≤ totalWeight chosen :=
  List.single_le_sum (fun _ _ => Nat.zero_le _) _ (List.mem_map.mpr ⟨x, hx, rfl⟩)

/-- A coin alone is a selection. -/
lemma Covers.single {x : ScoredUtxo} (hx : x ∈ pool) (henough : target ≤ x.effectiveValue)
    (hlight : x.utxo.inputVbytes ≤ maxWeight) : Covers pool target maxWeight [x] where
  nonempty := List.cons_ne_nil x []
  subperm := List.singleton_subperm_iff.mpr hx
  enough := by simpa [totalValue] using henough
  light := by simpa [totalWeight] using hlight

/-- With no coin in the change range, a selection has a larger coin, or all of its coins are applicable
and below the target. -/
lemma Covers.larger_or_small (hc : Covers pool target maxWeight chosen)
    (hrange : target + changeTarget < 2 ^ 64)
    (hgap : ∀ x ∈ pool, ¬ (target ≤ x.effectiveValue ∧ x.effectiveValue ≤ target + changeTarget)) :
    (∃ y, (Knapsack.fill pool target changeTarget maxWeight).lowestLarger = some y ∧
        y.effectiveValue ≤ totalValue chosen) ∨
      chosen.Subperm (Knapsack.fill pool target changeTarget maxWeight).applicable ∧
        ∀ x ∈ chosen, x.effectiveValue < target := by
  have hexact : ∀ x ∈ pool, ¬ x.IsExact target changeTarget maxWeight := by
    intro x hx h
    refine hgap x hx ⟨h.1, ?_⟩
    rw [← u64_of_lt hrange]
    exact h.2.1
  by_cases hsmall : ∀ x ∈ chosen, x.effectiveValue < target
  · refine .inr ⟨?_, hsmall⟩
    rw [Knapsack.fill_eq]
    have hfilter : chosen.filter (ScoredUtxo.IsSmall target changeTarget maxWeight) = chosen := by
      refine List.filter_eq_self.mpr fun x hx => decide_eq_true ⟨hexact x (hc.subperm.subset hx), ?_⟩
      rw [u64_of_lt hrange]
      exact (hsmall x hx).trans_le (Nat.le_add_right _ _)
    have hsub := hc.subperm.filter
      (fun x => decide (ScoredUtxo.IsSmall target changeTarget maxWeight x))
    rw [hfilter] at hsub
    exact hsub
  · push Not at hsmall
    obtain ⟨x, hx, hge⟩ := hsmall
    have hmem := hc.subperm.subset hx
    have hlarger : x.IsLarger target changeTarget maxWeight := by
      refine ⟨hexact x hmem, ?_⟩
      have hout := hgap x hmem
      rw [u64_of_lt hrange]
      omega
    obtain ⟨y, hy⟩ := Knapsack.fill_lowestLarger_isSome hmem hlarger
    refine .inl ⟨y, hy, ?_⟩
    exact ((Knapsack.fill_lowestLarger hy).2 x hmem hlarger).trans (effectiveValue_le_total hx)

/-- A selection of small coins is one that the search has seen. -/
lemma Covers.best_le {k : Knapsack} (hc : Covers pool target maxWeight chosen)
    (hfits : totalValue k.applicable < 2 ^ 64 ∧ (target ≤ totalValue k.applicable →
      KnapsackDfsExact target maxWeight knapsackTries
        (k.applicable.insertionSort ScoredUtxo.knapsackOrder) [] 0 0 .start))
    (htries : (knapsackBest k.applicable target maxWeight).tries < knapsackTries)
    (hsub : chosen.Subperm k.applicable) (hsmall : ∀ x ∈ chosen, x.effectiveValue < target) :
    target ≤ u64 (k.applicable.map ScoredUtxo.effectiveValue).sum ∧
      (knapsackBest k.applicable target maxWeight).best ≤ totalValue chosen ∧
      ((knapsackBest k.applicable target maxWeight).bestSelection = [] →
        (knapsackBest k.applicable target maxWeight).best = 2 ^ 64 - 1) := by
  have hreach : target ≤ totalValue k.applicable :=
    hc.enough.trans (sum_le_of_subperm hsub ScoredUtxo.effectiveValue)
  have hdfs := hfits.2 hreach
  refine ⟨?_, ?_, fun hnil => ?_⟩
  · exact hreach.trans (u64_of_lt hfits.1).symm.le
  · exact knapsackBest_le (hreach.trans_lt hfits.1) hdfs htries hsub hc.enough hc.light
  · rcases knapsackBest_found hdfs with ⟨-, hbest⟩ | ⟨-, found, ⟨-, henough, -, -⟩, hfound⟩
    · exact hbest
    · -- the empty selection would only do for no target at all, and then no coin is small
      rw [hnil, eq_comm, List.map_eq_nil_iff] at hfound
      obtain ⟨x, hx⟩ := List.exists_mem_of_ne_nil chosen hc.nonempty
      have hzero : target ≤ 0 := by simpa [hfound, totalValue] using henough
      have hlt := hsmall x hx
      omega

/-- **The knapsack is optimal**, with a budget that it does not exhaust, if no coin is too heavy and none
is in the change range.  It selects something if there is a selection of one coin or one that is worth
less than the greatest `u64`, from which the search starts, and what it selects is worth the least. -/
theorem knapsack_optimal (hfits : KnapsackExact pool target changeTarget maxWeight)
    (hwords : ∀ x ∈ pool, x.effectiveValue < 2 ^ 64)
    (hlight : ∀ x ∈ pool, x.utxo.inputVbytes ≤ maxWeight)
    (hgap : ∀ x ∈ pool, ¬ (target ≤ x.effectiveValue ∧ x.effectiveValue ≤ target + changeTarget))
    (htries : (knapsackBest (Knapsack.fill pool target changeTarget maxWeight).applicable target
      maxWeight).tries < knapsackTries) :
    (selectCoinsKnapsack pool target changeTarget maxWeight = none ↔
      ∀ chosen : List ScoredUtxo, Covers pool target maxWeight chosen →
        chosen.length ≠ 1 ∧ 2 ^ 64 - 1 ≤ totalValue chosen) ∧
    ∀ selected strategy,
      selectCoinsKnapsack pool target changeTarget maxWeight = some (selected, strategy) →
      ∃ chosen : List ScoredUtxo, Covers pool target maxWeight chosen ∧
        selected = chosen.map ScoredUtxo.utxo ∧
        ∀ other : List ScoredUtxo, Covers pool target maxWeight other →
          totalValue chosen ≤ totalValue other := by
  obtain ⟨k, hk⟩ : ∃ k, Knapsack.fill pool target changeTarget maxWeight = k := ⟨_, rfl⟩
  have hrange : ∀ {x : ScoredUtxo}, x ∈ pool → target + changeTarget < 2 ^ 64 := fun hx =>
    hfits.1 (List.ne_nil_of_mem hx)
  have hexact : k.bestExact = none := by
    rw [← hk, Knapsack.fill_bestExact_eq_none]
    intro x hx h
    refine hgap x hx ⟨h.1, ?_⟩
    rw [← u64_of_lt (hrange hx)]
    exact h.2.1
  have hsums := hfits.2 k hk hexact
  rw [hk] at htries
  have hcases : ∀ {other : List ScoredUtxo}, Covers pool target maxWeight other →
      (∃ y, k.lowestLarger = some y ∧ y.effectiveValue ≤ totalValue other) ∨
        other.Subperm k.applicable ∧ ∀ x ∈ other, x.effectiveValue < target := by
    intro other hother
    obtain ⟨x, hx⟩ := List.exists_mem_of_ne_nil other hother.nonempty
    rw [← hk]
    exact hother.larger_or_small (hrange (hother.subperm.subset hx)) hgap
  have hlarger : ∀ {y : ScoredUtxo}, k.lowestLarger = some y →
      y ∈ pool ∧ target ≤ y.effectiveValue := by
    intro y hy
    rw [← hk] at hy
    obtain ⟨⟨hmem, hy⟩, -⟩ := Knapsack.fill_lowestLarger hy
    exact ⟨hmem, hfits.larger_enough hmem hy⟩
  by_cases hwins : k.SearchWins target maxWeight
  · -- the search has found the best selection
    rw [selectCoinsKnapsack_search hk hexact hwins]
    obtain ⟨hreach, hne, hless⟩ := hwins
    have hdfs := hsums.2 (hreach.trans (u64_of_lt hsums.1).le)
    rcases knapsackBest_found hdfs with ⟨hnil, -⟩ |
      ⟨hbest, chosen, ⟨hsub, henough, hweight, hscore⟩, hchosen⟩
    · exact absurd hnil hne
    · have hcovers : Covers pool target maxWeight chosen := by
        refine ⟨?_, ?_, henough, hweight⟩
        · rintro rfl
          exact hne hchosen
        · rw [← hk] at hsub
          exact hsub.trans (Knapsack.fill_sublist target changeTarget maxWeight pool).subperm
      refine ⟨⟨fun h => (by cases h), fun hnone => ?_⟩, fun selected strategy h => ?_⟩
      · have htop := (hnone chosen hcovers).2
        omega
      · simp only [Option.some.injEq, Prod.mk.injEq] at h
        refine ⟨chosen, hcovers, h.1.symm.trans hchosen, fun other hother => ?_⟩
        rw [← hscore]
        rcases hcases hother with ⟨y, hy, hle⟩ | ⟨hsmaller, hsmall⟩
        · exact (hless y hy (hlight y (hlarger hy).1)).le.trans hle
        · exact (hother.best_le hsums htries hsmaller hsmall).2.1
  · rw [selectCoinsKnapsack_single hk hexact hwins]
    cases hlow : k.lowestLarger with
    | none =>
        have hnone : k.single maxWeight = none := by rw [Knapsack.single, hlow]; rfl
        rw [hnone]
        refine ⟨⟨fun _ other hother => ?_, fun _ => rfl⟩, fun selected strategy h => (by cases h)⟩
        rcases hcases hother with ⟨y, hy, -⟩ | ⟨hsmaller, hsmall⟩
        · rw [hlow] at hy
          cases hy
        · obtain ⟨hreach, hbest, hstart⟩ := hother.best_le hsums htries hsmaller hsmall
          have hnil : (knapsackBest k.applicable target maxWeight).bestSelection = [] := by
            by_contra hne
            refine hwins ⟨hreach, hne, fun y hy => ?_⟩
            rw [hlow] at hy
            cases hy
          refine ⟨fun hone => ?_, (hstart hnil).symm.le.trans hbest⟩
          obtain ⟨x, rfl⟩ := List.length_eq_one_iff.mp hone
          have hlt := hsmall x (List.mem_singleton_self x)
          have henough := hother.enough
          simp only [totalValue, List.map_cons, List.map_nil, List.sum_cons, List.sum_nil] at henough
          omega
    | some y =>
        have hmem := (hlarger hlow).1
        have hcovers := Covers.single hmem (hlarger hlow).2 (hlight y hmem)
        have hsome : k.single maxWeight = some ([y.utxo], .knapsack) :=
          Knapsack.single_eq_some.mpr ⟨y, hlow, hlight y hmem, rfl, rfl⟩
        rw [hsome]
        refine ⟨⟨fun h => (by cases h), fun hnone => ?_⟩, fun selected strategy h => ?_⟩
        · exact absurd rfl (hnone [y] hcovers).1
        · simp only [Option.some.injEq, Prod.mk.injEq] at h
          refine ⟨[y], hcovers, h.1.symm, fun other hother => ?_⟩
          have hy : totalValue [y] = y.effectiveValue := by simp [totalValue]
          rw [hy]
          rcases hcases hother with ⟨z, hz, hle⟩ | ⟨hsmaller, hsmall⟩
          · rw [hlow] at hz
            rwa [Option.some.inj hz]
          · obtain ⟨hreach, hbest, hstart⟩ := hother.best_le hsums htries hsmaller hsmall
            by_contra hgt
            -- then the search would have found something better than the coin
            refine hwins ⟨hreach, fun hnil => ?_, fun z hz _ => ?_⟩
            · have htop := hstart hnil
              have hword := hwords y hmem
              omega
            · rw [hlow] at hz
              rw [← Option.some.inj hz]
              omega

theorem knapsack_optimal_three : ∃ chosen : List ScoredUtxo,
    Covers [plainCoin 5, plainCoin 20, plainCoin 7] 11 10 chosen ∧
      [(plainCoin 7).utxo, (plainCoin 5).utxo] = chosen.map ScoredUtxo.utxo ∧
      ∀ other : List ScoredUtxo, Covers [plainCoin 5, plainCoin 20, plainCoin 7] 11 10 other →
        totalValue chosen ≤ totalValue other := by
  have hfits : KnapsackExact [plainCoin 5, plainCoin 20, plainCoin 7] 11 3 10 :=
    knapsackExact_of (by decide) (by decide) fun _ => by decide
  exact (knapsack_optimal hfits (by decide +kernel) (by decide +kernel) (by decide +kernel)
    (knapsackBest_tries_lt (by decide +kernel))).2 _ .knapsack (by decide +kernel)

/-- Two coins cover the target together, but they are worth as much as the search starts from, and
nothing is selected. -/
theorem knapsack_misses :
    KnapsackExact [plainCoin (2 ^ 63), plainCoin (2 ^ 63 - 1)] (2 ^ 64 - 2) 0 10 ∧
    (∀ x ∈ [plainCoin (2 ^ 63), plainCoin (2 ^ 63 - 1)], x.utxo.inputVbytes ≤ 10 ∧
      ¬ (2 ^ 64 - 2 ≤ x.effectiveValue ∧ x.effectiveValue ≤ 2 ^ 64 - 2 + 0)) ∧
    [plainCoin (2 ^ 63), plainCoin (2 ^ 63 - 1)].length ≤ 15 ∧
    ¬ (selectCoinsKnapsack [plainCoin (2 ^ 63), plainCoin (2 ^ 63 - 1)] (2 ^ 64 - 2) 0 10 = none ↔
      ¬ ∃ chosen, Covers [plainCoin (2 ^ 63), plainCoin (2 ^ 63 - 1)] (2 ^ 64 - 2) 10 chosen) := by
  refine ⟨knapsackExact_of (by decide) (by decide) fun _ => by decide, by decide +kernel, by decide,
    fun h => ?_⟩
  have hnone : selectCoinsKnapsack [plainCoin (2 ^ 63), plainCoin (2 ^ 63 - 1)] (2 ^ 64 - 2) 0 10 =
      none := by decide +kernel
  exact h.mp hnone ⟨_, List.cons_ne_nil _ _, .refl _, by decide +kernel, by decide +kernel⟩

end Knapsack

/-! ## Completeness -/

section Complete

variable {target cost maxWeight maxTries changeTarget tries : ℕ} {pool : List ScoredUtxo}

/-- A node of the first branch: everything so far was taken, and nothing has been found yet. -/
structure FirstBranch (target maxWeight maxTries : ℕ) (all rest : List ScoredUtxo) (a : Taken)
    (search : Search) : Prop where
  node : Node (KnapsackDfsExact target maxWeight maxTries) all rest a search
  whole : a.selection ++ rest = all
  tries : search.tries ≤ a.selection.length
  best : search.best = 2 ^ 64 - 1

/-- The first branch goes on until the target is reached. -/
lemma FirstBranch.visit {all rest : List ScoredUtxo} {a : Taken} {search : Search}
    (hlength : all.length < maxTries) (henough : target ≤ totalValue all)
    (hlight : totalWeight all ≤ maxWeight) (htop : totalValue all < 2 ^ 64 - 1)
    (h : FirstBranch target maxWeight maxTries all rest a search) :
    ((knapsackSearch target maxWeight maxTries).visit rest a search).1.best < 2 ^ 64 - 1 ∨
      ∃ x tail, rest = x :: tail ∧
        ((knapsackSearch target maxWeight maxTries).visit rest a search).2 = true ∧
        FirstBranch target maxWeight maxTries all tail (a.take x)
          ((knapsackSearch target maxWeight maxTries).visit rest a search).1 := by
  have hwhole : totalValue a.selection + totalValue rest = totalValue all := by
    rw [← totalValue_append, h.whole]
  have hweights : totalWeight a.selection + totalWeight rest = totalWeight all := by
    rw [← totalWeight_append, h.whole]
  have htaken : a.selection.length ≤ all.length := (sublist_of_node h.node.sublist).length_le
  have hvalue := h.node.value
  have hweight := h.node.weight
  have hspent : ¬ maxTries ≤ search.tries := by
    have htries := h.tries
    omega
  have hreach : ¬ u64 (a.value + suffixSum rest) < target := by
    rw [suffixSum_eq (by omega), u64_of_lt (by omega)]
    omega
  have hheavy : ¬ maxWeight < a.weight := by omega
  have hvisit : (knapsackSearch target maxWeight maxTries).visit rest a search =
      if target ≤ a.value then (search.next.record a.selection a.value, false)
      else (search.next, search.best ≠ target) := by
    simp only [knapsackSearch, knapsackVisit, if_neg hspent, if_neg hreach, if_neg hheavy]
  by_cases hcovers : target ≤ a.value
  · left
    rw [hvisit, if_pos hcovers]
    have hrecord := (search.next.record_best_le a.selection a.value).2
    exact hrecord.trans_lt (by omega)
  · right
    rw [if_neg hcovers] at hvisit
    cases rest with
    | nil =>
        have hnone : totalValue [] = 0 := rfl
        omega
    | cons x tail =>
        have hgo : ((knapsackSearch target maxWeight maxTries).visit (x :: tail) a search).2 =
            true := by
          rw [hvisit]
          refine decide_eq_true ?_
          rw [h.best]
          omega
        refine ⟨x, tail, rfl, hgo, ?_, ?_, ?_, ?_⟩
        · exact (knapsack_node_descends target maxWeight maxTries all).take x tail a search h.node hgo
        · rw [← h.whole, Taken.take, List.append_assoc]
          rfl
        · rw [hvisit, Taken.take, List.length_append]
          exact Nat.succ_le_succ h.tries
        · rw [hvisit]
          exact h.best

/-- **The knapsack search finds a selection** in a pool that covers the target, if the pool is not longer
than the budget. -/
lemma knapsackBest_finds (hfits : KnapsackDfsExact target maxWeight knapsackTries
      (pool.insertionSort ScoredUtxo.knapsackOrder) [] 0 0 .start)
    (hlength : pool.length < knapsackTries) (htarget : 0 < target)
    (henough : target ≤ totalValue pool) (hlight : totalWeight pool ≤ maxWeight)
    (htop : totalValue pool < 2 ^ 64 - 1) :
    (knapsackBest pool target maxWeight).bestSelection ≠ [] := by
  have hperm := List.perm_insertionSort ScoredUtxo.knapsackOrder pool
  have hrun : knapsackBest pool target maxWeight = (knapsackSearch target maxWeight knapsackTries).run
      (pool.insertionSort ScoredUtxo.knapsackOrder) .start .start :=
    knapsackDfs_eq_run target maxWeight knapsackTries _ .start .start
  have hfinds := SublistSearch.run_finds (P := fun search => search.best < 2 ^ 64 - 1)
    (N := FirstBranch target maxWeight knapsackTries (pool.insertionSort ScoredUtxo.knapsackOrder))
    (fun rest a search h => (knapsackVisit_best_le rest a search).trans_lt h)
    (fun rest a search h => FirstBranch.visit (hperm.length_eq.trans_lt hlength)
      (henough.trans (totalValue_perm hperm).symm.le) ((totalWeight_perm hperm).le.trans hlight)
      ((totalValue_perm hperm).trans_lt htop) h)
    _ _ _ ⟨Node.start hfits, rfl, le_refl 0, rfl⟩
  rcases knapsackBest_found hfits with ⟨-, hbest⟩ | ⟨-, chosen, ⟨-, hcovers, -, -⟩, hchosen⟩
  · rw [← hrun, hbest] at hfinds
    exact absurd hfinds (lt_irrefl _)
  · rw [hchosen, Ne, List.map_eq_nil_iff]
    rintro rfl
    exact absurd htarget (not_lt.mpr hcovers)

/-- A pool that covers the target, all of it together, and is not too heavy. -/
structure Suffices (pool : List ScoredUtxo)
    (target costOfChange maxSelectionWeight maxTries changeTarget : ℕ) : Prop where
  positive : 0 < target
  length : pool.length < 100000
  enough : target ≤ totalValue pool
  light : totalWeight pool ≤ maxSelectionWeight
  fits : SelectExact pool target costOfChange maxSelectionWeight maxTries changeTarget
  bounded : totalValue pool < 2 ^ 64 - 1

/-- **The knapsack selects something** of a pool that suffices. -/
lemma selectCoinsKnapsack_isSome (hlength : pool.length < knapsackTries) (htarget : 0 < target)
    (henough : target ≤ totalValue pool) (hlight : totalWeight pool ≤ maxWeight)
    (htop : totalValue pool < 2 ^ 64 - 1) (hfits : KnapsackExact pool target changeTarget maxWeight) :
    ∃ selected, selectCoinsKnapsack pool target changeTarget maxWeight =
      some (selected, .knapsack) := by
  obtain ⟨k, hk⟩ : ∃ k, Knapsack.fill pool target changeTarget maxWeight = k := ⟨_, rfl⟩
  cases hexact : k.bestExact with
  | some x => exact ⟨_, selectCoinsKnapsack_exact hk hexact⟩
  | none =>
      by_cases hwins : k.SearchWins target maxWeight
      · exact ⟨_, selectCoinsKnapsack_search hk hexact hwins⟩
      · obtain ⟨hsmall, hdfs⟩ := hfits.2 k hk hexact
        have hsub : k.applicable.Sublist pool := by
          rw [← hk]
          exact Knapsack.fill_sublist target changeTarget maxWeight pool
        have hvalue := sum_le_of_subperm hsub.subperm ScoredUtxo.effectiveValue
        have hweight := sum_le_of_subperm hsub.subperm fun x => x.utxo.inputVbytes
        -- a search that does not win has lost to a larger coin, or the small coins are not enough
        have hlarger : ∃ x, k.lowestLarger = some x := by
          by_contra hnone
          push Not at hnone
          by_cases hreach : target ≤ totalValue k.applicable
          · refine hwins ⟨hreach.trans (u64_of_lt hsmall).symm.le, ?_, fun x hx => absurd hx (hnone x)⟩
            exact knapsackBest_finds (hdfs hreach) (hsub.length_le.trans_lt hlength) htarget hreach
              (hweight.trans hlight) (hvalue.trans_lt htop)
          · refine hreach (henough.trans ?_)
            have hall : k.applicable = pool := by
              rw [← hk, Knapsack.fill_eq]
              refine List.filter_eq_self.mpr fun x hx => decide_eq_true ?_
              have hout := Knapsack.fill_bestExact_eq_none.mp (hk.symm ▸ hexact) x hx
              refine ⟨hout, not_le.mp fun hge => ?_⟩
              obtain ⟨y, hy⟩ := Knapsack.fill_lowestLarger_isSome hx ⟨hout, hge⟩
              rw [hk] at hy
              exact hnone y hy
            rw [hall]
        obtain ⟨x, hx⟩ := hlarger
        have hmem : x ∈ pool := by
          rw [← hk] at hx
          exact (Knapsack.fill_lowestLarger hx).1.1
        rw [selectCoinsKnapsack_single hk hexact hwins]
        exact ⟨_, Knapsack.single_eq_some.mpr
          ⟨x, hx, (inputVbytes_le_total hmem).trans hlight, rfl, rfl⟩⟩

/-- **Something is selected** of a pool that suffices. -/
lemma Suffices.selectCoins_isSome (h : Suffices pool target cost maxWeight tries changeTarget) :
    ∃ selected strategy, selectCoins pool target cost maxWeight tries changeTarget =
      some (selected, strategy) := by
  rw [selectCoins]
  cases hbnb : selectCoinsBnb pool target cost maxWeight tries with
  | some found => exact ⟨found.1, found.2, rfl⟩
  | none =>
      obtain ⟨selected, hselected⟩ := selectCoinsKnapsack_isSome h.length h.positive h.enough h.light
        h.bounded (h.fits.2 hbnb)
      exact ⟨selected, .knapsack, hselected⟩

end Complete

end BifrostNode.Btc
