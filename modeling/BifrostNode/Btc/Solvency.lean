import BifrostNode.Btc.Outbound

/-!
# What an outbound transaction pays

The hook selects coins for the requests and for the fee of everything but the coins; the fee of the coins
is taken off their values.  Only the knapsack leaves change, and then the fee is computed anew.

**Completeness.**  When all coins together suffice and fit, the hook does not fail for lack of a selection
(`selection_complete`).

**Solvency.**  A transaction spends at least what it creates and its fee, and none of its outputs is dust
(`outbound_solvent`).
-/

namespace BifrostNode.Btc

open Cccp Staking Transition Pool Queue StorageMap

variable {AccountId : Type} {host : Host AccountId} {requests : List (SocketMessage × Script)}

/-! ## Completeness -/

section Complete

variable {s : Bridge AccountId} {longTermFeeRate feeRate : ℕ} {messages : List Bytes}

/-- What the hook selects for the requests. -/
def Bridge.hookSelection (host : Host AccountId) (s : Bridge AccountId)
    (requests : List (SocketMessage × Script)) (longTermFeeRate feeRate : ℕ) :
    Option (List UtxoInfoWithSize × SelectionStrategy) :=
  selectCoins (scoredUtxos (s.blaze.getUtxos host) longTermFeeRate feeRate)
    (outboundTarget requests (u64 (outboundAmount requests)) feeRate) (u64 (43 * feeRate)) 200000 100000
    dustLimit

lemma mapM_asU64 {amounts : List ℕ}
    (h : requests.mapM (fun e => asU64 e.1.params.amount) = some amounts) :
    amounts.sum = outboundAmount requests := by
  have hmap : requests.mapM (fun e => asU64 e.1.params.amount) =
      some (requests.map fun e => e.1.params.amount.val) := by
    refine mapM_eq_some_map fun e he => ?_
    have hfits := mapM_isSome_iff.mp (Option.isSome_iff_exists.mpr ⟨amounts, h⟩) e he
    rw [asU64] at hfits ⊢
    split_ifs at hfits ⊢
    · rfl
    · cases hfits
  rw [h] at hmap
  rw [Option.some.inj hmap]
  rfl

/-- The hook fails when the coins are not worth more than the requests, when nothing is selected, or when
no transaction is composed. -/
lemma planOutbound_fail
    (hfilter : filterUnregisteredOutbounds host s.pool s.blaze.outboundPool = some (messages, requests))
    (h : s.planOutbound host longTermFeeRate feeRate = some .fail) :
    u64 (vaultAmount (s.blaze.getUtxos host)) ≤ u64 (outboundAmount requests) ∨
      s.hookSelection host requests longTermFeeRate feeRate = none ∨
      ∃ selected strategy,
        s.hookSelection host requests longTermFeeRate feeRate = some (selected, strategy) ∧
        compositePsbt host s.pool selected requests (u64 (outboundAmount requests)) feeRate strategy =
          some none := by
  simp only [Bridge.planOutbound, hfilter, Option.bind_eq_bind, Option.bind_some,
    Option.pure_def] at h
  split_ifs at h
  · cases h
  · cases h
  · obtain ⟨amounts, hamounts, h⟩ := Option.bind_eq_some_iff.mp h
    rw [mapM_asU64 hamounts] at h
    split_ifs at h with hlow
    · exact .inl hlow
    · split at h
      case h_1 hnone => exact .inr (.inl hnone)
      case h_2 selected strategy hselect =>
        obtain ⟨composed, hcomposed, h⟩ := Option.bind_eq_some_iff.mp h
        cases composed with
        | none => exact .inr (.inr ⟨selected, strategy, hselect, hcomposed⟩)
        | some psbt => cases h

/-- **Completeness.**  Something is selected of a pool that suffices, whatever the budget of branch and
bound, the cost of change and the change range.  So the hook does not fail for lack of a selection when
its coins suffice: it fails because they are not worth more than the requests, or because no transaction is
composed of what was selected. -/
theorem selection_complete {pool : List ScoredUtxo} {target cost weight tries change : ℕ}
    (h : Suffices pool target cost weight tries change) :
    (∃ selected strategy, selectCoins pool target cost weight tries change =
      some (selected, strategy)) ∧
    ∀ (host : Host AccountId) (s : Bridge AccountId) (longTermFeeRate feeRate : ℕ)
      (messages : List Bytes) (requests : List (SocketMessage × Script)),
      filterUnregisteredOutbounds host s.pool s.blaze.outboundPool = some (messages, requests) →
      pool = Bridge.scoredUtxos (s.blaze.getUtxos host) longTermFeeRate feeRate →
      target = Bridge.outboundTarget requests (u64 (outboundAmount requests)) feeRate →
      cost = u64 (43 * feeRate) → weight = 200000 → tries = 100000 → change = dustLimit →
      s.planOutbound host longTermFeeRate feeRate = some .fail →
      u64 (vaultAmount (s.blaze.getUtxos host)) ≤ u64 (outboundAmount requests) ∨
        ∃ selected strategy,
          s.hookSelection host requests longTermFeeRate feeRate = some (selected, strategy) ∧
          compositePsbt host s.pool selected requests (u64 (outboundAmount requests)) feeRate
            strategy = some none := by
  refine ⟨h.selectCoins_isSome, ?_⟩
  rintro host s longTermFeeRate feeRate messages requests hfilter rfl rfl rfl rfl rfl rfl hfail
  obtain ⟨selected, strategy, hselect⟩ := h.selectCoins_isSome
  rcases planOutbound_fail hfilter hfail with hlow | hnone | hcomposed
  · exact .inl hlow
  · rw [Bridge.hookSelection, hselect] at hnone
    cases hnone
  · exact .inr hcomposed

theorem selection_complete_two : ∃ selected strategy,
    selectCoins [plainCoin 5, plainCoin 7] 11 0 10 0 3 = some (selected, strategy) := by
  have hfits : SelectExact [plainCoin 5, plainCoin 7] 11 0 10 0 3 :=
    ⟨BnbTarget.dfsExact_of _ (by decide +kernel) (by decide +kernel) fun _ => by decide,
      fun _ => knapsackExact_of (by decide) (by decide) fun _ => by decide⟩
  have hsuffices : Suffices [plainCoin 5, plainCoin 7] 11 0 10 0 3 :=
    ⟨by decide, by decide, by decide, by decide, hfits, by decide⟩
  exact (@selection_complete ℕ _ _ _ _ _ _ hsuffices).1

/-- Two coins suffice together, but they are worth as much as the search starts from, and nothing is
selected. -/
theorem selection_misses :
    ¬ ∀ (pool : List ScoredUtxo) (target cost weight tries change : ℕ), 0 < target →
      pool.length < 100000 → target ≤ totalValue pool → totalWeight pool ≤ weight →
      totalValue pool < 2 ^ 64 → SelectExact pool target cost weight tries change →
      ∃ selected strategy, selectCoins pool target cost weight tries change =
        some (selected, strategy) := by
  intro h
  have hfits : SelectExact [plainCoin (2 ^ 63), plainCoin (2 ^ 63 - 1)] (2 ^ 64 - 2) 0 10 100000 0 :=
    (selectExact_iff (by decide) (by decide) (by decide)).mpr
      ⟨fun _ => by decide, fun _ _ => by decide⟩
  obtain ⟨selected, strategy, hselect⟩ := h _ _ _ _ _ _ (by decide) (by decide) (by decide +kernel)
    (by decide +kernel) (by decide +kernel) hfits
  have hnone : selectCoins [plainCoin (2 ^ 63), plainCoin (2 ^ 63 - 1)] (2 ^ 64 - 2) 0 10 100000 0 =
      none := by decide +kernel
  rw [hnone] at hselect
  cases hselect

end Complete

/-! ## Solvency -/

/-- What the inputs of a PSBT are worth. -/
def Psbt.inputValue (self : Psbt) : ℕ :=
  (self.inputs.map fun input => input.witnessUtxo.elim 0 TxOut.value).sum

/-- What the outputs of a PSBT are worth. -/
def Psbt.outputValue (self : Psbt) : ℕ := (self.unsignedTx.output.map TxOut.value).sum

/-- The size that the hook pays for: the coins, as long as they are when signed, and the outputs. -/
def spentVbytes (selected : List UtxoInfoWithSize) (output : List TxOut) : ℕ :=
  11 + (selected.map UtxoInfoWithSize.inputVbytes).sum + (output.map TxOut.size).sum

section Solvency

variable {pool : Registration AccountId} {selected : List UtxoInfoWithSize} {target feeRate : ℕ}
  {strategy : SelectionStrategy} {psbt : Psbt}

/-- A transaction that spends coins has no scripts yet, so that a PSBT can be made of it. -/
lemma fromUnsignedTx_spend {output : List TxOut} {k : Psbt → Option (Option Psbt)} :
    (match Psbt.fromUnsignedTx ⟨2, 0, selected.map spendInput, output⟩ with
      | none => some none
      | some psbt => k psbt) =
      k ⟨⟨2, 0, selected.map spendInput, output⟩,
        (selected.map spendInput).map fun _ => ⟨none, none, none, [], []⟩⟩ := by
  have hall : (selected.map spendInput).all (fun i => i.scriptSig.isEmpty) = true := by
    rw [List.all_map, List.all_eq_true]
    exact fun _ _ => rfl
  rw [Psbt.fromUnsignedTx, if_pos hall]

/-- What `composite_psbt` puts together. -/
lemma compositePsbt_eq_some
    (h : compositePsbt host pool selected requests target feeRate strategy = some (some psbt)) :
    ∃ merged, mergeOutputs requests = some merged ∧ paidOutputs merged ≠ [] ∧
      selected.mapM (spendPsbtInput host) = some psbt.inputs ∧
      psbt.unsignedTx.input = selected.map spendInput ∧
      (if strategy = .knapsack then
        addChange host pool selected (paidOutputs merged) target feeRate
      else some (paidOutputs merged)) = some psbt.unsignedTx.output := by
  rw [compositePsbt] at h
  obtain ⟨merged, hmerged, h⟩ := Option.bind_eq_some_iff.mp h
  refine ⟨merged, hmerged, ?_⟩
  have houtput : (merged.toList.filter fun e => dustLimit < e.2).map (fun e => (⟨e.2, e.1⟩ : TxOut)) =
      paidOutputs merged := rfl
  rw [houtput] at h
  dsimp only at h
  split_ifs at h with hempty hknapsack
  · cases h
  · rw [if_pos hknapsack]
    split at h
    case h_1 => cases h
    case h_2 output hchange =>
      obtain ⟨inputs, hinputs, h⟩ := Option.bind_eq_some_iff.mp (fromUnsignedTx_spend.symm.trans h)
      obtain rfl := Option.some.inj (Option.some.inj h)
      exact ⟨hempty, hinputs, rfl, hchange⟩
  · rw [if_neg hknapsack]
    obtain ⟨inputs, hinputs, h⟩ := Option.bind_eq_some_iff.mp (fromUnsignedTx_spend.symm.trans h)
    obtain rfl := Option.some.inj (Option.some.inj h)
    exact ⟨hempty, hinputs, rfl, rfl⟩

/-- The inputs are worth the coins that they spend. -/
lemma inputValue_eq (h : selected.mapM (spendPsbtInput host) = some psbt.inputs) :
    psbt.inputValue = (selected.map UtxoInfoWithSize.amount).sum := by
  have hall : ∀ {coins : List UtxoInfoWithSize} {inputs : List PsbtInput},
      coins.mapM (spendPsbtInput host) = some inputs →
      inputs.map (fun input => input.witnessUtxo.elim 0 TxOut.value) =
        coins.map UtxoInfoWithSize.amount := by
    intro coins
    induction coins with
    | nil =>
        intro inputs h
        obtain rfl := Option.some.inj h
        rfl
    | cons x coins ih =>
        intro inputs h
        rw [List.mapM_cons] at h
        obtain ⟨input, hinput, h⟩ := Option.bind_eq_some_iff.mp h
        obtain ⟨rest, hrest, h⟩ := Option.bind_eq_some_iff.mp h
        obtain rfl := Option.some.inj h
        obtain ⟨descriptor, -, hinput⟩ := Option.bind_eq_some_iff.mp hinput
        obtain rfl := Option.some.inj hinput
        rw [List.map_cons, List.map_cons, ih hrest]
        rfl
  rw [Psbt.inputValue, hall h]

/-- The outputs that are paid are worth no more than all of them. -/
lemma paidOutputs_value (merged : StorageMap Script ℕ) :
    ((paidOutputs merged).map TxOut.value).sum ≤ merged.sum fun _ value => value := by
  rw [paidOutputs, List.map_map, ← sum_toList]
  exact (List.filter_sublist.map _).sum_le_sum fun _ _ => Nat.zero_le _

lemma paidOutputs_dust {merged : StorageMap Script ℕ} {output : TxOut}
    (h : output ∈ paidOutputs merged) : dustLimit < output.value := by
  obtain ⟨e, he, rfl⟩ := List.mem_map.mp h
  exact of_decide_eq_true (List.mem_filter.mp he).2

/-- The change is what the coins are worth beyond the requests and the fee. -/
lemma changeAmount_eq_some {output : List TxOut} {change : ℕ}
    (hamount : (selected.map UtxoInfoWithSize.amount).sum < 2 ^ 64)
    (hsize : 11 + (selected.map UtxoInfoWithSize.inputVbytes).sum +
      ((output.map TxOut.size).sum + 43) < 2 ^ 64)
    (h : changeAmount selected output target feeRate = some change) :
    (selected.map UtxoInfoWithSize.amount).sum =
        target + feeRate * (spentVbytes selected output + 43) + change ∧ dustLimit < change := by
  rw [changeAmount] at h
  obtain ⟨rest, hrest, h⟩ := Option.bind_eq_some_iff.mp h
  obtain ⟨hchange, hdust⟩ := Option.filter_eq_some_iff.mp h
  have hbytes : u64 (11 + u64 (selected.map UtxoInfoWithSize.inputVbytes).sum +
      u64 ((output.map TxOut.size).sum + 43)) = spentVbytes selected output + 43 := by
    rw [u64_of_lt (n := (selected.map UtxoInfoWithSize.inputVbytes).sum) (by omega),
      u64_of_lt (n := (output.map TxOut.size).sum + 43) (by omega), u64_of_lt hsize, spentVbytes]
    omega
  have hdust := of_decide_eq_true hdust
  rw [u64_of_lt hamount, checkedSub64] at hrest
  rw [hbytes, checkedSub64] at hchange
  split_ifs at hrest hchange with hcover hfee
  obtain rfl := Option.some.inj hrest
  obtain rfl := Option.some.inj hchange
  -- a fee that saturates leaves no change
  simp only [saturate64] at hfee hdust ⊢
  exact ⟨by omega, hdust⟩

/-- The sums of the hook from the fees of the coins to the change. -/
structure SumsFit (utxos : List UtxoInfoWithSize) (requests : List (SocketMessage × Script))
    (longTermFeeRate feeRate cost weight tries change : ℕ) (selected : List UtxoInfoWithSize)
    (strategy : SelectionStrategy) : Prop where
  fees : ∀ x ∈ utxos, x.inputVbytes * feeRate < 2 ^ 64
  size : 11 + outputVbytes requests < 2 ^ 64
  target : outboundAmount requests + feeRate * (11 + outputVbytes requests) < 2 ^ 64
  selection : SelectExact (Bridge.scoredUtxos utxos longTermFeeRate feeRate)
    (Bridge.outboundTarget requests (outboundAmount requests) feeRate) cost weight tries change
  change : strategy = .knapsack → ChangeExact selected requests

/-- **Solvency.**  While no sum overflows, scripts are short and that of the system vault has 34 bytes, the
transaction that is composed of the selected coins spends at least what it creates and its fee, with or
without change.  All of its outputs are more than dust. -/
theorem outbound_solvent {utxos : List UtxoInfoWithSize}
    {longTermFeeRate cost weight tries change : ℕ}
    (hfits : SumsFit utxos requests longTermFeeRate feeRate cost weight tries change selected strategy)
    (hshort : ∀ e ∈ requests, e.2.length < 253)
    (hvault : ∀ text address, pool.getSystemVault pool.currentRound = some text →
      host.lib.addressFromStr text = some address → (host.lib.scriptPubkey address).length = 34)
    (hselect : selectCoins (Bridge.scoredUtxos utxos longTermFeeRate feeRate)
      (Bridge.outboundTarget requests (outboundAmount requests) feeRate) cost weight tries change =
        some (selected, strategy))
    (h : compositePsbt host pool selected requests (outboundAmount requests) feeRate strategy =
      some (some psbt)) :
    psbt.outputValue + feeRate * spentVbytes selected psbt.unsignedTx.output ≤ psbt.inputValue ∧
      ∀ output ∈ psbt.unsignedTx.output, dustLimit < output.value := by
  have htarget := hfits.target
  obtain ⟨merged, hmerged, hpaid, hinputs, -, houtput⟩ := compositePsbt_eq_some h
  have hout : outboundAmount requests < 2 ^ 64 := by omega
  obtain ⟨merged', hmerged', hsum, hkeys⟩ := mergeOutputs_exists hout
  obtain rfl := Option.some.inj (hmerged.symm.trans hmerged')
  have hvalue := paidOutputs_value merged
  have hsize := paidOutputs_size hkeys fun script hscript => by
    obtain ⟨e, he, rfl⟩ := List.mem_map.mp (List.mem_toFinset.mp hscript)
    exact hshort e he
  rw [← outputVbytes] at hsize
  -- without change, the coins pay for the requests and for all sizes
  have hcovers : outboundAmount requests + feeRate * (11 + outputVbytes requests) +
      feeRate * (selected.map UtxoInfoWithSize.inputVbytes).sum ≤ psbt.inputValue := by
    have hchosen : ∃ chosen : List ScoredUtxo,
        chosen.Subperm (Bridge.scoredUtxos utxos longTermFeeRate feeRate) ∧
        selected = chosen.map ScoredUtxo.utxo ∧ Bridge.outboundTarget requests
          (outboundAmount requests) feeRate ≤ totalValue chosen := by
      rcases selectCoins_eq_some hselect with hbnb | ⟨hnone, hknapsack⟩
      · obtain ⟨chosen, hsub, hchosen, hmatches, -⟩ :=
          selectCoinsBnb_sound hfits.selection.1 hbnb
        exact ⟨chosen, hsub, hchosen, hmatches.enough⟩
      · obtain ⟨chosen, hsub, hchosen, henough, -⟩ :=
          selectCoinsKnapsack_sound (hfits.selection.2 hnone) hknapsack
        exact ⟨chosen, hsub, hchosen, henough⟩
    obtain ⟨chosen, hsub, rfl, henough⟩ := hchosen
    have hworth := totalValue_add_fees fun x hx =>
      (scoredUtxos_amount longTermFeeRate hfits.fees x (hsub.subset hx)).1
    rw [outboundTarget_eq _ hfits.size (by omega)] at henough
    rw [inputValue_eq hinputs, List.map_map, List.map_map]
    rw [totalWeight, Nat.mul_comm] at hworth
    have hmin : outboundAmount requests + feeRate * (11 + outputVbytes requests) ≤
        totalValue chosen := by omega
    exact (Nat.add_le_add_right hmin _).trans hworth.le
  have hnochange : ((paidOutputs merged).map TxOut.value).sum +
      feeRate * spentVbytes selected (paidOutputs merged) ≤ psbt.inputValue := by
    have hbytes : spentVbytes selected (paidOutputs merged) ≤
        11 + outputVbytes requests + (selected.map UtxoInfoWithSize.inputVbytes).sum := by
      rw [spentVbytes]
      omega
    have hfee := Nat.mul_le_mul_left feeRate hbytes
    rw [Nat.mul_add] at hfee
    omega
  have hdust : ∀ output ∈ paidOutputs merged, dustLimit < output.value := fun output hmem =>
    paidOutputs_dust hmem
  split_ifs at houtput with hknapsack
  · rw [addChange] at houtput
    split at houtput
    case h_1 =>
      obtain hsame := Option.some.inj houtput
      rw [Psbt.outputValue, ← hsame]
      exact ⟨hnochange, hdust⟩
    case h_2 amount hamount =>
      obtain ⟨text, htext, houtput⟩ := Option.bind_eq_some_iff.mp houtput
      obtain ⟨address, haddress, houtput⟩ := Option.bind_eq_some_iff.mp houtput
      obtain hwith := Option.some.inj houtput
      obtain ⟨hamounts, hsizes⟩ := hfits.change hknapsack merged hmerged hpaid
      obtain ⟨heq, hchange⟩ := changeAmount_eq_some hamounts hsizes hamount
      have hlength := hvault text address htext haddress
      have hchangeSize : TxOut.size ⟨amount, host.lib.scriptPubkey address⟩ = 43 := by
        rw [TxOut.size, hlength]
        rfl
      rw [Psbt.outputValue, inputValue_eq hinputs, ← hwith, heq]
      refine ⟨?_, fun output hmem => ?_⟩
      · have hbytes : spentVbytes selected
            (paidOutputs merged ++ [⟨amount, host.lib.scriptPubkey address⟩]) =
            spentVbytes selected (paidOutputs merged) + 43 := by
          rw [spentVbytes, spentVbytes, List.map_append, List.sum_append, List.map_singleton,
            List.sum_singleton, hchangeSize]
          omega
        rw [hbytes, List.map_append, List.sum_append, List.map_singleton, List.sum_singleton]
        dsimp only
        omega
      · rcases List.mem_append.mp hmem with hmem | hmem
        · exact hdust output hmem
        · rw [List.mem_singleton.mp hmem]
          exact hchange
  · obtain hsame := Option.some.inj houtput
    rw [Psbt.outputValue, ← hsame]
    exact ⟨hnochange, hdust⟩

end Solvency

section Small

/-- The script of the system vault has 34 bytes. -/
def changeHost : Host ℕ := { outboundHost with
  lib := { outboundHost.lib with scriptPubkey := fun _ => List.replicate 34 0 } }

/-- There is a system vault. -/
def changePool : Registration ℕ := { Registration.genesis changeHost [1, 2] with
  systemVault := (∅ : StorageMap ℕ _).insert 1 ⟨.generated [1], [], ∅, 1, 1⟩ }

def changeCoin : UtxoInfoWithSize := ⟨1, 77, 0, 100000, [1], 100⟩

def changeRequests : List (SocketMessage × Script) :=
  [(outboundMessage 20000, List.replicate 22 0)]

/-- A coin pays for a request, and the rest goes back to the system vault. -/
theorem outbound_solvent_small : ∃ psbt,
    compositePsbt changeHost changePool [changeCoin] changeRequests
      (outboundAmount changeRequests) 2 .knapsack = some (some psbt) ∧
    psbt.unsignedTx.output.length = 2 ∧
    psbt.outputValue + 2 * spentVbytes [changeCoin] psbt.unsignedTx.output ≤ psbt.inputValue ∧
    ∀ output ∈ psbt.unsignedTx.output, dustLimit < output.value := by
  have hany : ((compositePsbt changeHost changePool [changeCoin] changeRequests
      (outboundAmount changeRequests) 2 .knapsack).any fun composed => composed.any fun psbt =>
        decide (psbt.unsignedTx.output.length = 2)) = true := by decide +kernel
  obtain ⟨composed, hcomposed, hany⟩ := (Option.any_eq_true _ _).mp hany
  obtain ⟨psbt, rfl, hlength⟩ := (Option.any_eq_true _ _).mp hany
  have hselection : SelectExact (Bridge.scoredUtxos [changeCoin] 1 2)
      (Bridge.outboundTarget changeRequests (outboundAmount changeRequests) 2) 86 200000 100000
      dustLimit :=
    (selectExact_iff (by decide +kernel) (by decide +kernel) (by decide)).mpr
      ⟨fun _ => by decide +kernel, fun _ _ => by decide +kernel⟩
  have hshort : ∀ e ∈ changeRequests, e.2.length < 253 := by decide +kernel
  have hchange : ChangeExact [changeCoin] changeRequests := by
    intro merged hmerged _
    have hout : outboundAmount changeRequests < 2 ^ 64 := by decide +kernel
    obtain ⟨merged', hmerged', -, hkeys⟩ := mergeOutputs_exists hout
    obtain rfl := Option.some.inj (hmerged.symm.trans hmerged')
    have hsize := paidOutputs_size hkeys (by decide +kernel)
    have hbytes : outputVbytes changeRequests = 31 := by decide +kernel
    rw [← outputVbytes, hbytes] at hsize
    refine ⟨by decide +kernel, ?_⟩
    have hinput : ([changeCoin].map UtxoInfoWithSize.inputVbytes).sum = 100 := by decide +kernel
    omega
  have hfits : SumsFit [changeCoin] changeRequests 1 2 86 200000 100000 dustLimit [changeCoin]
      .knapsack :=
    ⟨by decide +kernel, by decide +kernel, by decide +kernel, hselection, fun _ => hchange⟩
  have hsolvent := outbound_solvent hfits hshort (fun _ _ _ _ => rfl) (by decide +kernel) hcomposed
  exact ⟨psbt, hcomposed, of_decide_eq_true hlength, hsolvent⟩

end Small

end BifrostNode.Btc
