import BifrostNode.Btc.CoinMoves
import BifrostNode.Btc.Optimal
import BifrostNode.Btc.Rollbacks

/-!
# Building outbound transactions

The hook of the socket queue must not panic, and its sums are `u64`.  What it unwraps and adds up has
been checked by other calls, or has not.

**What it may rely on.**  A coin is kept under its hash and has a descriptor that parses, and a fee rate
is at least one (`Blaze.Sound`).  Messages of the pool that do not decode, or whose user is not
registered, are skipped.

**Where it goes wrong.**  The amount of a message is never compared with what fits, so `as_u64` panics,
and several sums wrap around.  `hook_safe_iff` says exactly when the hook is safe.
-/

namespace BifrostNode.Btc

open Cccp Staking Transition Pool Queue StorageMap

variable {AccountId : Type} [LinearOrder AccountId]

/-! ## What the hook relies on -/

/-- Coins are kept under their hashes and can be described, and no fee rate is zero. -/
structure Blaze.Sound (host : Host AccountId) (b : Blaze AccountId) : Prop where
  coins : ∀ k u, b.utxos.get k = some u →
    u.inner.hash = k ∧ (host.lib.descriptorFromStr u.inner.descriptor).isSome = true
  rates : ∀ a rate, b.feeRates.get a = some rate → 1 ≤ rate.feeRate

section Sound

variable {host : Host AccountId} {b b' : Blaze AccountId}

/-- What `Display` writes of a descriptor can be read. -/
def ReadsDescriptors (host : Host AccountId) : Prop :=
  ∀ text descriptor, host.lib.descriptorFromStr text = some descriptor →
    (host.lib.descriptorFromStr descriptor.text).isSome = true

/-- **Step lemma.**  Every move of coins keeps them and the fee rates sound. -/
lemma Blaze.Sound.move {s : Bridge AccountId} {i : Bridge.Step AccountId} (hread : ReadsDescriptors host)
    (hs : s.blaze.Sound host) (hm : BlazeMove host s i b) : b.Sound host := by
  refine ⟨hm.allCoins (P := fun k x => x.hash = k ∧
    (host.lib.descriptorFromStr x.descriptor).isSome = true) ?_ hs.coins, fun a rate ha => ?_⟩
  · intro utxo descriptor inner hbond hinner
    obtain ⟨hhash, htext⟩ := Blaze.withSize_eq_some hinner
    simp only [Registration.getBondedDescriptor, Option.bind_eq_some_iff] at hbond
    obtain ⟨text, -, hparse⟩ := hbond
    refine ⟨hhash, ?_⟩
    rw [htext]
    exact hread text descriptor hparse
  · cases hm with
    | submitted v sub hi hloop =>
        rw [(Blaze.submitUtxos_coinsOnly b hloop).feeRates_eq] at ha
        exact hs.rates a rate ha
    | rated v sub hi hrate =>
        simp only [Blaze.submitFeeRate, bind_eq_ok, ensure_eq_ok, okOr_eq_ok, pure_eq_ok, exists_const,
          Blaze.verifyAuthority, Blaze.ensureActivation] at hrate
        obtain ⟨-, -, -, -, ⟨hlow, -⟩, feeRates, hinsert, rfl⟩ := hrate
        rw [tryInsert] at hinsert
        split_ifs at hinsert
        obtain rfl := Option.some.inj hinsert
        simp only [get_insert] at ha
        split_ifs at ha
        · obtain rfl := Option.some.inj ha
          exact hlow
        · exact hs.rates a rate ha
    | touched hstamp =>
        obtain ⟨a', ha'⟩ := hstamp.feeRates a rate ha
        exact hs.rates a' rate ha'
    | locked selected hstamp havailable =>
        obtain ⟨a', ha'⟩ := hstamp.feeRates a rate ha
        exact hs.rates a' rate ha'
    | cleared utxos hi heq =>
        rw [heq, Blaze.forcePushUtxos_coinsOnly.feeRates_eq,
          Blaze.clearUtxos_coinsOnly.feeRates_eq] at ha
        exact hs.rates a rate ha
    | renamed old new hi heq =>
        subst heq
        simp only [Blaze.replaceAuthority, moveKey] at ha
        split at ha
        case h_1 => exact hs.rates a rate ha
        case h_2 rate' hold =>
          simp only [get_insert, get_remove] at ha
          split_ifs at ha
          · exact hs.rates old rate (hold.trans ha)
          · exact hs.rates a rate ha

lemma BridgeIf.blaze_sound {cond : Bridge AccountId → Bridge.Step AccountId → Prop}
    (hread : ReadsDescriptors host) {s : Bridge AccountId} (h : BridgeIf host cond s) :
    s.blaze.Sound host := by
  refine Reachable.invariant (P := fun s => s.blaze.Sound host) ?_ ?_ h
  · rintro s ⟨members, authority, rfl⟩
    exact ⟨fun k u hu => (by cases hu), fun a rate ha => (by cases ha)⟩
  · intro s i s' hs _ hstep
    exact hs.move hread (Bridge.step_blaze hstep)

end Sound

/-! ## The sums of the hook -/

/-- The requests that are not skipped, each with the script it pays to. -/
def Bridge.outboundRequests (host : Host AccountId) (s : Bridge AccountId) :
    List (SocketMessage × Script) :=
  s.blaze.outboundPool.filterMap fun m => (registeredOutbound host s.pool m).getD none

def outboundAmount (requests : List (SocketMessage × Script)) : ℕ :=
  (requests.map fun e => e.1.params.amount.val).sum

def vaultAmount (utxos : List UtxoInfoWithSize) : ℕ := (utxos.map UtxoInfoWithSize.amount).sum

/-- The size of the outputs, one for each script. -/
def outputVbytes (requests : List (SocketMessage × Script)) : ℕ :=
  ∑ script ∈ (requests.map Prod.snd).toFinset, (9 + script.length)

/-- The outputs of `composite_psbt` that are more than dust. -/
def paidOutputs (merged : StorageMap Script ℕ) : List TxOut :=
  (merged.toList.filter fun e => dustLimit < e.2).map fun e => ⟨e.2, e.1⟩

/-- The sums of `composite_psbt` for the change, which it gets to with an output that is paid. -/
def ChangeExact (selected : List UtxoInfoWithSize) (requests : List (SocketMessage × Script)) : Prop :=
  ∀ merged, mergeOutputs requests = some merged → paidOutputs merged ≠ [] →
    (selected.map UtxoInfoWithSize.amount).sum < 2 ^ 64 ∧
    11 + (selected.map UtxoInfoWithSize.inputVbytes).sum +
      (((paidOutputs merged).map TxOut.size).sum + 43) < 2 ^ 64

/-- The sums of the hook after it has compared the requests with the coins. -/
structure BuildExact (utxos : List UtxoInfoWithSize) (requests : List (SocketMessage × Script))
    (longTermFeeRate feeRate : ℕ) : Prop where
  size : 11 + outputVbytes requests < 2 ^ 64
  baseFee : feeRate * (11 + outputVbytes requests) < 2 ^ 64
  fees : ∀ x ∈ utxos, x.inputVbytes * feeRate < 2 ^ 64 ∧
    (x.inputVbytes * feeRate ≤ x.amount → x.inputVbytes * longTermFeeRate < 2 ^ 64)
  costOfChange : 43 * feeRate < 2 ^ 64
  selection : SelectExact (Bridge.scoredUtxos utxos longTermFeeRate feeRate)
    (Bridge.outboundTarget requests (outboundAmount requests) feeRate) (43 * feeRate) 200000 100000
    dustLimit
  change : ∀ selected, selectCoins (Bridge.scoredUtxos utxos longTermFeeRate feeRate)
      (Bridge.outboundTarget requests (outboundAmount requests) feeRate) (43 * feeRate) 200000 100000
      dustLimit = some (selected, .knapsack) → ChangeExact selected requests

/-- The sums of the hook with requests that are not skipped. -/
structure OutboundExact (utxos : List UtxoInfoWithSize) (requests : List (SocketMessage × Script))
    (longTermFeeRate feeRate : ℕ) : Prop where
  outbound : outboundAmount requests < 2 ^ 64
  vault : vaultAmount utxos < 2 ^ 64
  build : outboundAmount requests < vaultAmount utxos →
    BuildExact utxos requests longTermFeeRate feeRate

/-- The fee rates have a median. -/
def Bridge.HasMedian (v : View AccountId) (s : Bridge AccountId) : Prop :=
  v.relayers.majority ≤ (s.blaze.liveFeeRates v.now).keys.card →
    (s.blaze.liveFeeRates v.now).keys.Nonempty

/-- **None of the sums of the hook wraps around**, and it takes the median of something. -/
def Bridge.HookExact (host : Host AccountId) (v : View AccountId) (s : Bridge AccountId) : Prop :=
  s.blaze.isActivated = true → s.pool.serviceState = .normal → s.HasMedian v ∧
    ∀ longTermFeeRate feeRate, (s.prepare v).2 = some (longTermFeeRate, feeRate) →
      (s.prepare v).1.outboundRequests host ≠ [] →
      OutboundExact (s.blaze.getUtxos host) ((s.prepare v).1.outboundRequests host) longTermFeeRate
        feeRate

/-- **The hook is safe**: it does not panic, and none of its sums wraps around. -/
structure Bridge.HookSafe (host : Host AccountId) (v : View AccountId) (s : Bridge AccountId) :
    Prop where
  runs : (s.onInitialize host v).isSome = true
  exact : s.HookExact host v

/-! ## What has to fit -/

/-- What has to fit when the coins are worth more than the requests: the fees of the outputs and of the
coins, the cost of change on top of a target that can be reached, and the dust limit on top of a target
for which branch and bound finds nothing. -/
structure BuildFits (utxos : List UtxoInfoWithSize) (requests : List (SocketMessage × Script))
    (longTermFeeRate feeRate : ℕ) : Prop where
  baseFee : feeRate * (11 + outputVbytes requests) < 2 ^ 64
  fees : ∀ x ∈ utxos, x.inputVbytes * feeRate < 2 ^ 64
  costOfChange : 43 * feeRate < 2 ^ 64
  change : Bridge.outboundTarget requests (outboundAmount requests) feeRate ≤
      totalValue (Bridge.scoredUtxos utxos longTermFeeRate feeRate) →
    Bridge.outboundTarget requests (outboundAmount requests) feeRate + 43 * feeRate < 2 ^ 64
  range : selectCoinsBnb (Bridge.scoredUtxos utxos longTermFeeRate feeRate)
      (Bridge.outboundTarget requests (outboundAmount requests) feeRate) (43 * feeRate) 200000
      100000 = none → Bridge.scoredUtxos utxos longTermFeeRate feeRate ≠ [] →
    Bridge.outboundTarget requests (outboundAmount requests) feeRate + dustLimit < 2 ^ 64

/-- What has to fit with requests that are not skipped: every amount, their sum, and that of the coins. -/
structure OutboundFits (utxos : List UtxoInfoWithSize) (requests : List (SocketMessage × Script))
    (longTermFeeRate feeRate : ℕ) : Prop where
  amounts : ∀ e ∈ requests, e.1.params.amount.val < 2 ^ 64
  outbound : outboundAmount requests < 2 ^ 64
  vault : vaultAmount utxos < 2 ^ 64
  build : outboundAmount requests < vaultAmount utxos →
    BuildFits utxos requests longTermFeeRate feeRate

/-- **The condition**: wherever the hook gets to a sum, it fits into 64 bits, and a median needs a rate. -/
def Bridge.HookFits (host : Host AccountId) (v : View AccountId) (s : Bridge AccountId) : Prop :=
  s.blaze.isActivated = true → s.pool.serviceState = .normal → s.HasMedian v ∧
    ∀ longTermFeeRate feeRate, (s.prepare v).2 = some (longTermFeeRate, feeRate) →
      (s.prepare v).1.outboundRequests host ≠ [] →
      OutboundFits (s.blaze.getUtxos host) ((s.prepare v).1.outboundRequests host) longTermFeeRate
        feeRate

/-! ## Coins and fees -/

section Fees

variable {utxos : List UtxoInfoWithSize} (longTermFeeRate : ℕ) {feeRate : ℕ}

/-- The coins that are worth spending are among those that there are, in their order. -/
lemma scoredUtxos_sublist (utxos : List UtxoInfoWithSize) (feeRate : ℕ) :
    ((Bridge.scoredUtxos utxos longTermFeeRate feeRate).map ScoredUtxo.utxo).Sublist utxos := by
  induction utxos with
  | nil => exact .refl _
  | cons x utxos ih =>
      simp only [Bridge.scoredUtxos, List.filterMap_cons]
      split
      case h_1 => exact ih.cons x
      case h_2 y hy =>
        split_ifs at hy
        obtain rfl := Option.some.inj hy
        exact ih.cons_cons x

/-- A coin is worth its effective value and its fee. -/
lemma scoredUtxos_amount (hfees : ∀ x ∈ utxos, x.inputVbytes * feeRate < 2 ^ 64) :
    ∀ x ∈ Bridge.scoredUtxos utxos longTermFeeRate feeRate,
      x.effectiveValue + x.utxo.inputVbytes * feeRate = x.utxo.amount ∧
      x.excessFee ≤ x.utxo.inputVbytes * feeRate := by
  intro x hx
  simp only [Bridge.scoredUtxos, List.mem_filterMap] at hx
  obtain ⟨y, hy, hx⟩ := hx
  rw [u64_of_lt (hfees y hy)] at hx
  split_ifs at hx with hlow
  obtain rfl := Option.some.inj hx
  exact ⟨by dsimp only; omega, Nat.sub_le _ _⟩

/-- What coins are worth, by their effective values and their fees. -/
lemma totalValue_add_fees {coins : List ScoredUtxo}
    (h : ∀ x ∈ coins, x.effectiveValue + x.utxo.inputVbytes * feeRate = x.utxo.amount) :
    totalValue coins + totalWeight coins * feeRate = (coins.map fun x => x.utxo.amount).sum := by
  induction coins with
  | nil => simp [totalValue, totalWeight]
  | cons x coins ih =>
      have hx := h x List.mem_cons_self
      have hrest := ih fun y hy => h y (List.mem_cons_of_mem _ hy)
      simp only [totalValue_cons, totalWeight_cons, List.map_cons, List.sum_cons, Nat.add_mul]
      omega

/-- Coins of a pool, none of them twice, cost no more than what there is. -/
lemma totalValue_add_fees_le (hfees : ∀ x ∈ utxos, x.inputVbytes * feeRate < 2 ^ 64)
    {coins : List ScoredUtxo}
    (hcoins : coins.Subperm (Bridge.scoredUtxos utxos longTermFeeRate feeRate)) :
    totalValue coins + totalWeight coins * feeRate ≤ vaultAmount utxos := by
  rw [totalValue_add_fees fun x hx => (scoredUtxos_amount longTermFeeRate hfees x (hcoins.subset hx)).1]
  refine (sum_le_of_subperm hcoins fun x => x.utxo.amount).trans ?_
  have hsub := sum_le_of_subperm (scoredUtxos_sublist longTermFeeRate utxos feeRate).subperm
    UtxoInfoWithSize.amount
  rw [List.map_map] at hsub
  exact hsub

/-- What spending now costs more than later is part of the fees. -/
lemma totalExcess_le {coins : List ScoredUtxo}
    (h : ∀ x ∈ coins, x.excessFee ≤ x.utxo.inputVbytes * feeRate) :
    totalExcess coins ≤ totalWeight coins * feeRate := by
  induction coins with
  | nil => simp [totalExcess]
  | cons x coins ih =>
      have hx := h x List.mem_cons_self
      have hrest := ih fun y hy => h y (List.mem_cons_of_mem _ hy)
      simp only [totalExcess_cons, totalWeight_cons, Nat.add_mul]
      omega

end Fees

/-! ## Outputs -/

section Outputs

variable {requests : List (SocketMessage × Script)}

/-- One request is merged into the outputs. -/
def mergeOutput (merged : StorageMap Script ℕ) (e : SocketMessage × Script) :
    Option (StorageMap Script ℕ) := do
  let value ← asU64 e.1.params.amount
  let sum ← checkedAdd64 (merged.getD e.2 0) value
  return merged.insert e.2 sum

/-- **The outputs add up to the requests**, and there is one for each script. -/
lemma mergeOutputs_exists (h : outboundAmount requests < 2 ^ 64) :
    ∃ merged, mergeOutputs requests = some merged ∧
      merged.sum (fun _ value => value) = outboundAmount requests ∧
      merged.keys = (requests.map Prod.snd).toFinset := by
  have hloop : ∀ (es : List (SocketMessage × Script)) (m : StorageMap Script ℕ),
      m.sum (fun _ value => value) + outboundAmount es < 2 ^ 64 →
      ∃ merged, es.foldlM mergeOutput m = some merged ∧
        merged.sum (fun _ value => value) = m.sum (fun _ value => value) + outboundAmount es ∧
        merged.keys = m.keys ∪ (es.map Prod.snd).toFinset := by
    intro es
    induction es with
    | nil => exact fun m _ => ⟨m, rfl, rfl, by simp⟩
    | cons e es ih =>
        intro m hsum
        have hcons : outboundAmount (e :: es) = e.1.params.amount.val + outboundAmount es :=
          List.sum_cons
        rw [hcons] at hsum
        have hinsert : (m.insert e.2 (m.getD e.2 0 + e.1.params.amount.val)).sum
            (fun _ value => value) = m.sum (fun _ value => value) + e.1.params.amount.val := by
          cases hget : m.get e.2 with
          | none =>
              rw [sum_insert_of_none _ _ hget, getD, hget, Option.getD_none, zero_add]
          | some w =>
              have hsome := sum_insert_of_some (m.getD e.2 0 + e.1.params.amount.val)
                (fun _ value => value) hget
              rw [getD, hget, Option.getD_some] at hsome ⊢
              omega
        have hle : m.getD e.2 0 ≤ m.sum (fun _ value => value) := by
          rw [getD]
          cases hget : m.get e.2 with
          | none => exact Nat.zero_le _
          | some w => exact le_sum (fun _ value => value) hget
        have hone : mergeOutput m e = some (m.insert e.2 (m.getD e.2 0 + e.1.params.amount.val)) := by
          have hfits : e.1.params.amount.val < 2 ^ 64 := by omega
          have hadd : m.getD e.2 0 + e.1.params.amount.val < 2 ^ 64 := by omega
          simp only [mergeOutput, asU64, if_pos hfits, checkedAdd64, if_pos hadd, Option.bind_eq_bind,
            Option.bind_some, Option.pure_def]
        obtain ⟨merged, hmerged, hvalue, hkeys⟩ := ih
          (m.insert e.2 (m.getD e.2 0 + e.1.params.amount.val)) (by omega)
        refine ⟨merged, ?_, by omega, ?_⟩
        · rw [List.foldlM_cons, hone]
          exact hmerged
        · rw [hkeys]
          ext script
          simp only [StorageMap.insert, Finset.mem_union, Finset.mem_insert, List.map_cons,
            List.toFinset_cons]
          tauto
  obtain ⟨merged, hmerged, hvalue, hkeys⟩ := hloop requests ∅ (by simpa using h)
  refine ⟨merged, hmerged, by simpa using hvalue, by simpa using hkeys⟩

/-- The outputs that are paid are no larger than all outputs, while scripts are short. -/
lemma paidOutputs_size {merged : StorageMap Script ℕ} {scripts : Finset Script}
    (hkeys : merged.keys = scripts) (hshort : ∀ script ∈ scripts, script.length < 253) :
    ((paidOutputs merged).map TxOut.size).sum ≤ ∑ script ∈ scripts, (9 + script.length) := by
  have hall : ((paidOutputs merged).map TxOut.size).sum ≤
      (merged.toList.map fun e => TxOut.size ⟨e.2, e.1⟩).sum := by
    rw [paidOutputs, List.map_map]
    exact (List.filter_sublist.map _).sum_le_sum fun _ _ => Nat.zero_le _
  refine hall.trans ?_
  rw [sum_toList merged fun script value => TxOut.size ⟨value, script⟩, StorageMap.sum, hkeys]
  refine Finset.sum_le_sum fun script hscript => ?_
  obtain ⟨value, hvalue⟩ := mem_keys_iff.mp (hkeys ▸ hscript)
  have hlength := hshort script hscript
  rw [hvalue, Option.elim_some, TxOut.size, varIntSize, if_pos hlength]

/-- An output that is paid is more than dust, so the requests are. -/
lemma dustLimit_lt_of_paid {merged : StorageMap Script ℕ} (h : paidOutputs merged ≠ []) :
    dustLimit < merged.sum fun _ value => value := by
  have hfilter : merged.toList.filter (fun e => dustLimit < e.2) ≠ [] := by
    intro hnil
    exact h (by rw [paidOutputs, hnil]; rfl)
  obtain ⟨e, he⟩ := List.exists_mem_of_ne_nil _ hfilter
  obtain ⟨hmem, hdust⟩ := List.mem_filter.mp he
  exact (of_decide_eq_true hdust).trans_le (le_sum (fun _ value => value) (mem_toList.mp hmem))

end Outputs

/-! ## What fits is exact -/

section Build

variable {utxos : List UtxoInfoWithSize} {requests : List (SocketMessage × Script)}
  {longTermFeeRate feeRate : ℕ}

/-- Without overflow, the target is the amount and the fee of the outputs, or the largest number. -/
lemma outboundTarget_eq (amount : ℕ) (hsize : 11 + outputVbytes requests < 2 ^ 64)
    (hbase : feeRate * (11 + outputVbytes requests) < 2 ^ 64) :
    Bridge.outboundTarget requests amount feeRate =
      min (amount + feeRate * (11 + outputVbytes requests)) (2 ^ 64 - 1) := by
  have hbytes : u64 (outputVbytes requests) = outputVbytes requests := u64_of_lt (by omega)
  simp only [outputVbytes] at hbytes hsize hbase ⊢
  simp only [Bridge.outboundTarget]
  rw [hbytes, u64_of_lt hsize, u64_of_lt hbase]
  rfl

/-- Only the knapsack leaves change. -/
lemma selectCoins_knapsack {pool : List ScoredUtxo} {target cost weight tries change : ℕ}
    {selected : List UtxoInfoWithSize}
    (h : selectCoins pool target cost weight tries change = some (selected, .knapsack)) :
    selectCoinsBnb pool target cost weight tries = none ∧
      selectCoinsKnapsack pool target change weight = some (selected, .knapsack) := by
  rcases selectCoins_eq_some h with hbnb | hknapsack
  · obtain ⟨-, -, hstrategy⟩ := selectCoinsBnb_eq_some hbnb
    cases hstrategy
  · exact hknapsack

/-- The coins that are worth spending stay below what there is. -/
lemma scoredUtxos_fit (longTermFeeRate : ℕ) (hvault : vaultAmount utxos < 2 ^ 64) (hrate : 1 ≤ feeRate)
    (hfees : ∀ x ∈ utxos, x.inputVbytes * feeRate < 2 ^ 64) :
    totalValue (Bridge.scoredUtxos utxos longTermFeeRate feeRate) +
        totalExcess (Bridge.scoredUtxos utxos longTermFeeRate feeRate) < 2 ^ 64 ∧
      totalWeight (Bridge.scoredUtxos utxos longTermFeeRate feeRate) < 2 ^ 64 := by
  have hall := totalValue_add_fees_le longTermFeeRate hfees (.refl _)
  have hexcess := totalExcess_le fun x hx => (scoredUtxos_amount longTermFeeRate hfees x hx).2
  have hweight := Nat.le_mul_of_pos_right
    (totalWeight (Bridge.scoredUtxos utxos longTermFeeRate feeRate)) hrate
  exact ⟨by omega, by omega⟩

/-- **The change does not overflow**: the coins that are selected pay for the outputs and for
themselves, so that all sizes together stay below what the coins are worth. -/
lemma changeExact_of (hfits : BuildFits utxos requests longTermFeeRate feeRate)
    (hout : outboundAmount requests < 2 ^ 64) (hvault : vaultAmount utxos < 2 ^ 64)
    (hrate : 1 ≤ feeRate) (hshort : ∀ e ∈ requests, e.2.length < 253)
    {selected : List UtxoInfoWithSize}
    (h : selectCoins (Bridge.scoredUtxos utxos longTermFeeRate feeRate)
      (Bridge.outboundTarget requests (outboundAmount requests) feeRate) (43 * feeRate) 200000 100000
      dustLimit = some (selected, .knapsack)) : ChangeExact selected requests := by
  intro merged hmerged hpaid
  obtain ⟨hnone, hknapsack⟩ := selectCoins_knapsack h
  obtain ⟨hvalue, hweight⟩ := scoredUtxos_fit longTermFeeRate hvault hrate hfits.fees
  obtain ⟨chosen, hsub, rfl, hcover, -⟩ := selectCoinsKnapsack_sound
    (knapsackExact_of (by omega) hweight (hfits.range hnone)) hknapsack
  -- what the selected coins are worth pays for all of it
  have hworth := totalValue_add_fees_le longTermFeeRate hfits.fees hsub
  have hamounts : ((chosen.map ScoredUtxo.utxo).map UtxoInfoWithSize.amount).sum =
      totalValue chosen + totalWeight chosen * feeRate := by
    rw [List.map_map, totalValue_add_fees fun x hx =>
      (scoredUtxos_amount longTermFeeRate hfits.fees x (hsub.subset hx)).1]
    rfl
  have hweights : ((chosen.map ScoredUtxo.utxo).map UtxoInfoWithSize.inputVbytes).sum =
      totalWeight chosen := by
    rw [List.map_map]
    rfl
  have hbase := hfits.baseFee
  have hsize := Nat.le_mul_of_pos_left (11 + outputVbytes requests) hrate
  have hpaying := Nat.le_mul_of_pos_right (totalWeight chosen) hrate
  have htarget := outboundTarget_eq (outboundAmount requests) (by omega) hbase
  obtain ⟨merged', hmerged', hsum, hkeys⟩ := mergeOutputs_exists hout
  obtain rfl := Option.some.inj (hmerged.symm.trans hmerged')
  have hdust := dustLimit_lt_of_paid hpaid
  have houtputs := paidOutputs_size hkeys fun script hscript => by
    obtain ⟨e, he, rfl⟩ := List.mem_map.mp (List.mem_toFinset.mp hscript)
    exact hshort e he
  rw [← outputVbytes] at houtputs
  rw [hsum] at hdust
  rw [htarget] at hcover
  -- a target that saturates leaves no room for the dust limit
  have hroom : Bridge.outboundTarget requests (outboundAmount requests) feeRate + dustLimit <
      2 ^ 64 := by
    refine hfits.range hnone fun hempty => ?_
    rw [hempty, List.subperm_nil] at hsub
    rw [hsub] at hcover
    simp only [totalValue, List.map_nil, List.sum_nil] at hcover
    omega
  rw [htarget] at hroom
  simp only [dustLimit] at hroom hdust
  rw [hamounts, hweights]
  exact ⟨by omega, by omega⟩

/-- The sums of the hook are right exactly when everything fits. -/
lemma buildExact_iff (hout : outboundAmount requests < 2 ^ 64) (hvault : vaultAmount utxos < 2 ^ 64)
    (hrate : 1 ≤ feeRate) (hlong : longTermFeeRate ≤ feeRate)
    (hshort : ∀ e ∈ requests, e.2.length < 253) :
    BuildExact utxos requests longTermFeeRate feeRate ↔
      BuildFits utxos requests longTermFeeRate feeRate := by
  constructor
  · intro h
    have hfees : ∀ x ∈ utxos, x.inputVbytes * feeRate < 2 ^ 64 := fun x hx => (h.fees x hx).1
    obtain ⟨hvalue, hweight⟩ := scoredUtxos_fit longTermFeeRate hvault hrate hfees
    obtain ⟨hchange, hrange⟩ := (selectExact_iff hvalue hweight (by norm_num)).mp h.selection
    exact ⟨h.baseFee, hfees, h.costOfChange, hchange, hrange⟩
  · intro h
    obtain ⟨hvalue, hweight⟩ := scoredUtxos_fit longTermFeeRate hvault hrate h.fees
    have hsize := Nat.le_mul_of_pos_left (11 + outputVbytes requests) hrate
    have hbase := h.baseFee
    refine ⟨by omega, hbase, fun x hx => ⟨h.fees x hx, fun _ => ?_⟩, h.costOfChange, ?_, ?_⟩
    · exact (Nat.mul_le_mul_left _ hlong).trans_lt (h.fees x hx)
    · exact (selectExact_iff hvalue hweight (by norm_num)).mpr ⟨h.change, h.range⟩
    · exact fun selected hselected => changeExact_of h hout hvault hrate hshort hselected

end Build

/-! ## What the hook unwraps -/

section Plan

variable {host : Host AccountId} {s : Bridge AccountId} {longTermFeeRate feeRate : ℕ}

/-- The refund addresses that are stored parse. -/
def RefundsParse (host : Host AccountId) (pool : Registration AccountId) : Prop :=
  ∀ who refund, pool.getRefundAddress who = some refund →
    (host.lib.addressFromStr refund).isSome = true

omit [LinearOrder AccountId] in
/-- Whether a message is skipped does not panic. -/
lemma registeredOutbound_isSome {pool : Registration AccountId} (h : RefundsParse host pool)
    (message : Bytes) : (registeredOutbound host pool message).isSome = true := by
  rw [registeredOutbound]
  split
  case h_1 => rfl
  case h_2 msg hmsg =>
    rw [Option.isSome_map, refundScript]
    split
    case h_1 => rfl
    case h_2 refund hrefund =>
      rw [Option.isSome_map]
      exact h _ refund hrefund

omit [LinearOrder AccountId] in
/-- **Messages are decoded or skipped.**  The hook goes on with a message exactly when there is a request
for it. -/
lemma filterUnregisteredOutbounds_exists (h : RefundsParse host s.pool) :
    ∃ messages, filterUnregisteredOutbounds host s.pool s.blaze.outboundPool =
        some (messages, s.outboundRequests host) ∧
      (messages = [] ↔ s.outboundRequests host = []) ∧
      ∀ m ∈ messages, (SocketMessage.tryFrom host.codec m).isSome = true := by
  set g := fun m => (registeredOutbound host s.pool m).getD none with hg
  have hfound : s.blaze.outboundPool.mapM (registeredOutbound host s.pool) =
      some (s.blaze.outboundPool.map g) := by
    refine mapM_eq_some_map fun m _ => ?_
    obtain ⟨found, hm⟩ := Option.isSome_iff_exists.mp (registeredOutbound_isSome h m)
    simp only [hg, hm, Option.getD_some]
  have hkept : ∀ m ∈ s.blaze.outboundPool, m ∉ ((s.blaze.outboundPool.zip
      (s.blaze.outboundPool.map g)).filter fun e => e.2.isNone).map Prod.fst ↔ (g m).isSome = true := by
    intro m hm
    rw [← List.map_prod_left_eq_zip]
    simp only [List.mem_map, List.mem_filter, not_exists, not_and]
    constructor
    · intro hnot
      by_contra hnone
      rw [Option.not_isSome_iff_eq_none] at hnone
      exact hnot (m, g m) ⟨⟨m, hm, rfl⟩, by rw [hnone]; rfl⟩ rfl
    · rintro hsome e ⟨⟨m', -, rfl⟩, hnone⟩ rfl
      dsimp only at hsome hnone
      rw [Option.isNone_iff_eq_none] at hnone
      rw [hnone] at hsome
      cases hsome
  refine ⟨s.blaze.outboundPool.filter fun m => (g m).isSome, ?_, ?_, fun m hm => ?_⟩
  · simp only [filterUnregisteredOutbounds, hfound, Option.bind_eq_bind, Option.bind_some,
      Option.pure_def, List.filterMap_map, Function.id_comp, Option.some.injEq, Prod.mk.injEq]
    refine ⟨List.filter_congr fun m hm => ?_, rfl⟩
    rw [Bool.eq_iff_iff, decide_eq_true_eq]
    exact hkept m hm
  · rw [Bridge.outboundRequests, List.filter_eq_nil_iff, List.filterMap_eq_nil_iff]
    refine forall₂_congr fun m _ => ?_
    rw [Option.not_isSome_iff_eq_none]
  · obtain ⟨-, hsome⟩ := List.mem_filter.mp hm
    simp only [hg, registeredOutbound] at hsome
    cases hdecode : SocketMessage.tryFrom host.codec m with
    | none =>
        rw [hdecode] at hsome
        cases hsome
    | some msg => rfl

omit [LinearOrder AccountId] in
/-- A PSBT is composed or there is none, if the amounts add up and the coins can be described. -/
lemma compositePsbt_isSome {pool : Registration AccountId} {selected : List UtxoInfoWithSize}
    {requests : List (SocketMessage × Script)} {target : ℕ} {strategy : SelectionStrategy}
    (hout : outboundAmount requests < 2 ^ 64)
    (hdesc : ∀ x ∈ selected, (host.lib.descriptorFromStr x.descriptor).isSome = true) :
    (compositePsbt host pool selected requests target feeRate strategy).isSome = true := by
  obtain ⟨merged, hmerged, -⟩ := mergeOutputs_exists hout
  have hinputs : (selected.mapM (spendPsbtInput host)).isSome = true := by
    refine mapM_isSome_iff.mpr fun x hx => ?_
    obtain ⟨descriptor, hparse⟩ := Option.isSome_iff_exists.mp (hdesc x hx)
    rw [spendPsbtInput, hparse]
    rfl
  obtain ⟨inputs, hinputs⟩ := Option.isSome_iff_exists.mp hinputs
  simp only [compositePsbt, hmerged, Option.bind_eq_bind, Option.bind_some, Option.pure_def]
  split_ifs
  · rfl
  · split
    · rfl
    · split
      · rfl
      · rw [hinputs]
        rfl
  · split
    · rfl
    · split
      · rfl
      · rw [hinputs]
        rfl

omit [LinearOrder AccountId] in
/-- **The plan does not panic**, if the amounts fit. -/
lemma planOutbound_isSome (hparse : RefundsParse host s.pool)
    (hdesc : ∀ x ∈ s.blaze.getUtxos host, (host.lib.descriptorFromStr x.descriptor).isSome = true)
    (hamounts : ∀ e ∈ s.outboundRequests host, e.1.params.amount.val < 2 ^ 64)
    (hout : outboundAmount (s.outboundRequests host) < 2 ^ 64) :
    (s.planOutbound host longTermFeeRate feeRate).isSome = true := by
  obtain ⟨messages, hfilter, -, -⟩ := filterUnregisteredOutbounds_exists hparse
  have hmap : (s.outboundRequests host).mapM (fun e => asU64 e.1.params.amount) =
      some ((s.outboundRequests host).map fun e => e.1.params.amount.val) := by
    refine mapM_eq_some_map fun e he => ?_
    rw [asU64, if_pos (hamounts e he)]
  simp only [Bridge.planOutbound, hfilter, hmap, Option.bind_eq_bind, Option.bind_some, Option.pure_def]
  split_ifs
  · rfl
  · rfl
  · rfl
  · split
    case h_1 => rfl
    case h_2 selected strategy hselect =>
      have hselected := selectCoins_holds hselect (scoredUtxos_holds hdesc)
      obtain ⟨psbt, hpsbt⟩ := Option.isSome_iff_exists.mp (compositePsbt_isSome hout hselected)
      rw [hpsbt, Option.bind_some]
      split <;> rfl

omit [LinearOrder AccountId] in
/-- A plan that does not panic has seen amounts that fit. -/
lemma amounts_of_planOutbound (hparse : RefundsParse host s.pool)
    (h : (s.planOutbound host longTermFeeRate feeRate).isSome = true) :
    ∀ e ∈ s.outboundRequests host, e.1.params.amount.val < 2 ^ 64 := by
  obtain ⟨messages, hfilter, hempty, -⟩ := filterUnregisteredOutbounds_exists hparse
  intro e he
  have hmessages : messages ≠ [] := by
    intro hnil
    rw [hempty.mp hnil] at he
    cases he
  have hpool : s.blaze.outboundPool ≠ [] := by
    intro hnil
    rw [Bridge.outboundRequests, hnil] at he
    cases he
  simp only [Bridge.planOutbound, if_neg hpool, hfilter, if_neg hmessages, Option.bind_eq_bind,
    Option.bind_some] at h
  obtain ⟨plan, hplan⟩ := Option.isSome_iff_exists.mp h
  obtain ⟨amounts, hamounts, -⟩ := Option.bind_eq_some_iff.mp hplan
  have hfit := mapM_isSome_iff.mp (Option.isSome_iff_exists.mpr ⟨amounts, hamounts⟩) e he
  by_contra hlarge
  rw [asU64, if_neg hlarge] at hfit
  cases hfit

variable {v : View AccountId}

/-- **What is planned is done**: its messages decode, and its coins are there to be locked. -/
lemma execute_isSome (hsound : s.blaze.Sound host) (hparse : RefundsParse host (s.prepare v).1.pool)
    {plan : Plan} (h : s.plan host v = some plan) :
    ((s.prepare v).1.execute host plan).isSome = true := by
  cases plan with
  | idle => rfl
  | fail => rfl
  | build psbt messages selected =>
      obtain ⟨longTermFeeRate, feeRate, hplan⟩ := Bridge.plan_build h
      obtain ⟨requests, target, strategy, hfilter, -⟩ := Bridge.planOutbound_build hplan
      obtain ⟨messages', hfilter', -, hdecode⟩ := filterUnregisteredOutbounds_exists hparse
      obtain ⟨rfl, -⟩ := Prod.mk.inj (Option.some.inj (hfilter.symm.trans hfilter'))
      obtain ⟨parsed, hparsed⟩ := Option.isSome_iff_exists.mp (mapM_isSome_iff.mpr hdecode)
      have hthere : ∀ input ∈ selected, (s.prepare v).1.blaze.utxos.contains input.hash = true := by
        intro input hmem
        obtain ⟨k, u, hu, -, rfl⟩ := Bridge.plan_selected h input hmem
        rw [Bridge.prepare_utxos, (hsound.coins k u hu).1, StorageMap.contains, hu]
        rfl
      have hset : ∃ b, ((s.prepare v).1.blaze.clearFeeRates.clearOutboundPool messages).setStatus .locked
          selected = .ok b := Blaze.exists_setStatus hthere
      obtain ⟨b, hlock⟩ := hset
      have hlocked : ((s.prepare v).1.blaze.clearFeeRates.clearOutboundPool messages).lockUtxos
          (txidOf host psbt) selected = .ok { b with
            pendingTxs := b.pendingTxs.insert (txidOf host psbt) ⟨selected, []⟩ } := by
        rw [Blaze.lockUtxos, hlock]
        rfl
      simp only [Bridge.execute, hparsed, Option.bind_eq_bind, Option.bind_some, Bridge.recordMessages,
        Bridge.addPending, hlocked]
      rfl

/-- The fee rates that the hook works with are medians of those that were submitted. -/
lemma rates_of_prepare (hsound : s.blaze.Sound host) (hact : s.blaze.isActivated = true)
    (hnormal : s.pool.serviceState = .normal) (hmedian : s.HasMedian v)
    (h : (s.prepare v).2 = some (longTermFeeRate, feeRate)) :
    1 ≤ feeRate ∧ longTermFeeRate ≤ feeRate := by
  rw [Bridge.prepare, if_pos ⟨hact, hnormal⟩] at h
  simp only [Blaze.tryFeeRateFinalization, List.length_map, length_toList] at h
  split_ifs at h with hall
  simp only [Option.some.injEq, Prod.mk.injEq] at h
  obtain ⟨rfl, rfl⟩ := h
  refine ⟨?_, hall.2⟩
  obtain ⟨a, ha⟩ := hmedian hall.1
  set rates := ((s.blaze.liveFeeRates v.now).toList.map Prod.snd).map Blaze.FeeRate.feeRate with hrates
  have hlength : (rates.insertionSort (· ≤ ·)).length = (s.blaze.liveFeeRates v.now).keys.card := by
    rw [List.length_insertionSort, hrates, List.length_map, List.length_map, length_toList]
  have hcard : rates.length = (s.blaze.liveFeeRates v.now).keys.card := by
    rw [hrates, List.length_map, List.length_map, length_toList]
  have hpos : 0 < (s.blaze.liveFeeRates v.now).keys.card := Finset.card_pos.mpr ⟨a, ha⟩
  have hmem : Blaze.median rates ∈ rates := by
    refine (List.mem_insertionSort (· ≤ ·)).mp ?_
    rw [Blaze.median, List.getD_eq_getElem _ _ (by omega)]
    exact List.getElem_mem _
  rw [hrates] at hmem
  simp only [List.map_map, List.mem_map] at hmem
  obtain ⟨⟨a', rate⟩, hlive, hrate⟩ := hmem
  have hget := mem_toList.mp hlive
  simp only [Blaze.liveFeeRates, get_filterKeys] at hget
  split_ifs at hget
  rw [hrates, List.map_map, ← hrate]
  exact hsound.rates a' rate hget

end Plan

/-! ## Results -/

/-- The script of an address is short: its length takes one byte. -/
def ShortScripts (host : Host AccountId) : Prop :=
  ∀ text address, host.lib.addressFromStr text = some address →
    (host.lib.scriptPubkey address).length < 253

section Results

variable {host : Host AccountId} {s : Bridge AccountId} {v : View AccountId}

omit [LinearOrder AccountId] in
lemma outboundRequests_short (hshort : ShortScripts host) :
    ∀ e ∈ s.outboundRequests host, e.2.length < 253 := by
  intro e he
  simp only [Bridge.outboundRequests, List.mem_filterMap] at he
  obtain ⟨m, -, he⟩ := he
  rw [registeredOutbound] at he
  split at he
  case h_1 => cases he
  case h_2 msg hmsg =>
    rw [refundScript] at he
    split at he
    case h_1 => cases he
    case h_2 refund hrefund =>
      cases haddress : host.lib.addressFromStr refund with
      | none =>
          rw [haddress] at he
          cases he
      | some address =>
          rw [haddress] at he
          simp only [Option.map_some, Option.getD_some, Option.some.injEq] at he
          rw [← he]
          exact hshort refund address haddress

lemma Bridge.getUtxos_prepare : (s.prepare v).1.blaze.getUtxos host = s.blaze.getUtxos host := by
  rw [Blaze.getUtxos, Blaze.getUtxos, Bridge.prepare_utxos]

/-- The plan is that of the outbound pool, with the fee rates that the relayers agree on. -/
lemma Bridge.plan_eq {longTermFeeRate feeRate : ℕ}
    (h : (s.prepare v).2 = some (longTermFeeRate, feeRate)) :
    s.plan host v = (s.prepare v).1.planOutbound host longTermFeeRate feeRate := by
  rw [Bridge.plan]
  split
  case h_1 t hprepare =>
    rw [hprepare] at h
    cases h
  case h_2 t l f hprepare =>
    rw [hprepare] at h
    obtain ⟨rfl, rfl⟩ := Prod.mk.inj (Option.some.inj h)
    rw [hprepare]

/-- **When the hook is safe.**  In every reachable state, the hook of the socket queue neither panics nor
wraps around exactly when what it adds up fits: the amounts of the messages, their sum and that of the
coins, and the fees.  Nothing else that it unwraps can fail. -/
theorem hook_safe_iff (hread : ReadsDescriptors host) (hshort : ShortScripts host)
    (h : BridgeIf host anyStep s) (hparse : RefundsParse host (s.prepare v).1.pool) :
    s.HookSafe host v ↔ s.HookFits host v := by
  have hsound := h.blaze_sound hread
  have hscripts := outboundRequests_short (s := (s.prepare v).1) hshort
  constructor
  · rintro ⟨hruns, hexact⟩ hact hnormal
    obtain ⟨hmedian, hall⟩ := hexact hact hnormal
    refine ⟨hmedian, fun longTermFeeRate feeRate hrates hne => ?_⟩
    obtain ⟨hrate, hlong⟩ := rates_of_prepare hsound hact hnormal hmedian hrates
    have hsums := hall longTermFeeRate feeRate hrates hne
    have hplan : ((s.prepare v).1.planOutbound host longTermFeeRate feeRate).isSome = true := by
      rw [← Bridge.plan_eq hrates]
      cases hplan : s.plan host v with
      | none =>
          rw [Bridge.onInitialize, hplan] at hruns
          cases hruns
      | some plan => rfl
    refine ⟨amounts_of_planOutbound hparse hplan, hsums.outbound, hsums.vault, fun hlt => ?_⟩
    exact (buildExact_iff hsums.outbound hsums.vault hrate hlong hscripts).mp (hsums.build hlt)
  · intro hfits
    refine ⟨?_, fun hact hnormal => ?_⟩
    · have hplan : (s.plan host v).isSome = true := by
        cases hrates : (s.prepare v).2 with
        | none =>
            rw [Bridge.plan]
            split
            case h_1 => rfl
            case h_2 t l f hprepare =>
              rw [hprepare] at hrates
              cases hrates
        | some rates =>
            obtain ⟨longTermFeeRate, feeRate⟩ := rates
            have hready : s.blaze.isActivated = true ∧ s.pool.serviceState = .normal := by
              by_contra hnot
              rw [Bridge.prepare, if_neg hnot] at hrates
              cases hrates
            obtain ⟨-, hall⟩ := hfits hready.1 hready.2
            have hdesc : ∀ x ∈ (s.prepare v).1.blaze.getUtxos host,
                (host.lib.descriptorFromStr x.descriptor).isSome = true := by
              rw [Bridge.getUtxos_prepare]
              intro x hx
              obtain ⟨k, u, hu, -, rfl⟩ := Blaze.mem_getUtxos hx
              exact (hsound.coins k u hu).2
            rw [Bridge.plan_eq hrates]
            by_cases hnil : (s.prepare v).1.outboundRequests host = []
            · refine planOutbound_isSome hparse hdesc ?_ ?_
              · rw [hnil]
                simp
              · rw [hnil]
                simp [outboundAmount]
            · have hall := hall longTermFeeRate feeRate hrates hnil
              exact planOutbound_isSome hparse hdesc hall.amounts hall.outbound
      obtain ⟨plan, hplan⟩ := Option.isSome_iff_exists.mp hplan
      rw [Bridge.onInitialize, hplan]
      exact execute_isSome hsound hparse hplan
    · obtain ⟨hmedian, hall⟩ := hfits hact hnormal
      refine ⟨hmedian, fun longTermFeeRate feeRate hrates hne => ?_⟩
      obtain ⟨hrate, hlong⟩ := rates_of_prepare hsound hact hnormal hmedian hrates
      have hall := hall longTermFeeRate feeRate hrates hne
      refine ⟨hall.outbound, hall.vault, fun hlt => ?_⟩
      exact (buildExact_iff hall.outbound hall.vault hrate hlong hscripts).mpr (hall.build hlt)

end Results

/-! ## Deciding the condition -/

section Decide

instance (utxos : List UtxoInfoWithSize) (requests : List (SocketMessage × Script))
    (longTermFeeRate feeRate : ℕ) : Decidable (BuildFits utxos requests longTermFeeRate feeRate) :=
  decidable_of_iff (feeRate * (11 + outputVbytes requests) < 2 ^ 64 ∧
      (∀ x ∈ utxos, x.inputVbytes * feeRate < 2 ^ 64) ∧ 43 * feeRate < 2 ^ 64 ∧
      (Bridge.outboundTarget requests (outboundAmount requests) feeRate ≤
          totalValue (Bridge.scoredUtxos utxos longTermFeeRate feeRate) →
        Bridge.outboundTarget requests (outboundAmount requests) feeRate + 43 * feeRate < 2 ^ 64) ∧
      (selectCoinsBnb (Bridge.scoredUtxos utxos longTermFeeRate feeRate)
          (Bridge.outboundTarget requests (outboundAmount requests) feeRate) (43 * feeRate) 200000
          100000 = none → Bridge.scoredUtxos utxos longTermFeeRate feeRate ≠ [] →
        Bridge.outboundTarget requests (outboundAmount requests) feeRate + dustLimit < 2 ^ 64))
    ⟨fun h => ⟨h.1, h.2.1, h.2.2.1, h.2.2.2.1, h.2.2.2.2⟩,
      fun h => ⟨h.baseFee, h.fees, h.costOfChange, h.change, h.range⟩⟩

instance (utxos : List UtxoInfoWithSize) (requests : List (SocketMessage × Script))
    (longTermFeeRate feeRate : ℕ) : Decidable (OutboundFits utxos requests longTermFeeRate feeRate) :=
  decidable_of_iff ((∀ e ∈ requests, e.1.params.amount.val < 2 ^ 64) ∧
      outboundAmount requests < 2 ^ 64 ∧ vaultAmount utxos < 2 ^ 64 ∧
      (outboundAmount requests < vaultAmount utxos →
        BuildFits utxos requests longTermFeeRate feeRate))
    ⟨fun h => ⟨h.1, h.2.1, h.2.2.1, h.2.2.2⟩, fun h => ⟨h.amounts, h.outbound, h.vault, h.build⟩⟩

instance (host : Host AccountId) (v : View AccountId) (s : Bridge AccountId) :
    Decidable (s.HookFits host v) :=
  decidable_of_iff (s.blaze.isActivated = true → s.pool.serviceState = .normal →
      (v.relayers.majority ≤ (s.blaze.liveFeeRates v.now).keys.card →
        (s.blaze.liveFeeRates v.now).keys.card ≠ 0) ∧
      ∀ rates ∈ (s.prepare v).2, (s.prepare v).1.outboundRequests host ≠ [] →
        OutboundFits (s.blaze.getUtxos host) ((s.prepare v).1.outboundRequests host) rates.1 rates.2)
    (by
      simp only [Bridge.HookFits, Bridge.HasMedian, Finset.card_ne_zero, Prod.forall,
        Option.mem_def])

end Decide

/-! ## Small runs -/

section Small

/-- What a run shows, it shows of a reachable state. -/
lemma outboundRun_exists (amount : U256) {P : Bridge ℕ → Bool}
    (h : (runSteps (Bridge.step outboundHost) (.genesis outboundHost [1, 2] none)
      (outboundRun amount)).any P = true) : ∃ s, BridgeIf outboundHost anyStep s ∧ P s = true :=
  smallRun_exists outboundHost anyStep (outboundRun amount) (fun _ _ _ => trivial) h

/-- A request for 20000 units is built into a transaction, and everything fits. -/
theorem hook_safe_small : ∃ s : Bridge ℕ, BridgeIf outboundHost anyStep s ∧
    s.HookSafe outboundHost smallView ∧
    ∃ s', s.onInitialize outboundHost smallView = some s' ∧ s'.blaze.pendingTxs.toList.length = 1 := by
  have hrun := outboundRun_exists 20000
    (P := fun s => decide (s.HookFits outboundHost smallView) &&
      (s.onInitialize outboundHost smallView).any fun s' =>
        decide (s'.blaze.pendingTxs.toList.length = 1)) (by decide +kernel)
  obtain ⟨s, hs, hP⟩ := hrun
  simp only [Bool.and_eq_true, decide_eq_true_eq, Option.any_eq_true] at hP
  obtain ⟨hfits, s', hhook, hpending⟩ := hP
  have hread : ReadsDescriptors outboundHost := fun _ _ _ => rfl
  have hshort : ShortScripts outboundHost := fun text address _ =>
    (List.length_take_le 40 address).trans_lt (by norm_num)
  have hsafe := (hook_safe_iff hread hshort hs fun _ _ _ => rfl).mpr hfits
  exact ⟨s, hs, hsafe, s', hhook, hpending⟩

/-- **The hook panics.**  The Socket contract has accepted a request for `2 ^ 64` units.  It gets into the
outbound pool, and the next block cannot begin. -/
theorem hook_panics : ∃ s : Bridge ℕ, BridgeIf outboundHost anyStep s ∧
    s.onInitialize outboundHost smallView = none ∧ ¬ s.HookSafe outboundHost smallView := by
  have hrun := outboundRun_exists 0x10000000000000000
    (P := fun s => (s.onInitialize outboundHost smallView).isNone) (by decide +kernel)
  obtain ⟨s, hs, hP⟩ := hrun
  have hnone := Option.isNone_iff_eq_none.mp hP
  refine ⟨s, hs, hnone, fun hsafe => ?_⟩
  have hruns := hsafe.runs
  rw [hnone] at hruns
  cases hruns

end Small

end BifrostNode.Btc
