import BifrostNode.Fees.Transfers

/-!
# Receipts

`PendingFeePayments` says what each transaction of the block has paid in tokens.

**Indexes.**  An entry carries the index of its transaction, and later transactions have later ones, until
the counter stops at the largest word.  `FeePallet.Sound` says so, and holds in every run
(`sound_of_reachable`).

**Amounts.**  The entry is written again when the fee is corrected, whatever became of the refund.  It is what
the user has paid exactly when there is nothing to refund or the refund goes through (`receipts_exact_iff`);
the chain of `receipts_inexact` refunds nothing and notes half of what it took.
-/

namespace BifrostNode.Fees

open Cccp Staking Transition Words

variable {σ : Type} {host : Host σ} {log : σ → List Transfer} {s s₁ s₃ : Chain σ} {who : H160} {fee : ℕ}

/-! ## Indexes -/

/-- The largest index of a transaction. -/
def lastTxIndex : ℕ := 2 ^ 32 - 1

namespace FeePallet

/-- The index was given to a transaction of this block. -/
def Past (s : FeePallet) (i : ℕ) : Prop := i < s.currentTxIndex ∨ s.currentTxIndex = lastTxIndex

/-- **The storage is in order.**  Tokens have at most 18 decimals, and entries have past indexes. -/
structure Sound (s : FeePallet) : Prop where
  decimals : ∀ token config, s.acceptedFeeTokens.get token = some config → config.decimals.toNat ≤ 18
  counted : s.currentTxIndex ≤ lastTxIndex
  past : ∀ user i info, s.pendingFeePayments.get (user, i) = some info → s.Past i

variable {p p' : FeePallet} {token : H160} {config : FeeTokenConfig} {i : ℕ} {origin : Origin H160}

lemma Sound.genesis : FeePallet.genesis.Sound where
  decimals token config h := by cases h
  counted := Nat.zero_le _
  past user i info h := by cases h

lemma Sound.insertToken (h : p.Sound) (hconfig : config.decimals.toNat ≤ 18) :
    Sound { p with acceptedFeeTokens := p.acceptedFeeTokens.insert token config } where
  decimals t c hc := by
    rw [StorageMap.get_insert] at hc
    split_ifs at hc
    · exact Option.some.inj hc ▸ hconfig
    · exact h.decimals t c hc
  counted := h.counted
  past := h.past

lemma Sound.addFeeToken (h : p.Sound) (hp : p.addFeeToken origin token config = .ok p') : p'.Sound := by
  simp only [FeePallet.addFeeToken, bind_eq_ok, ensure_eq_ok, pure_eq_ok, exists_const] at hp
  rcases hp with ⟨-, -, hconfig, rfl⟩
  exact h.insertToken hconfig

lemma Sound.updateFeeToken (h : p.Sound) (hp : p.updateFeeToken origin token config = .ok p') :
    p'.Sound := by
  simp only [FeePallet.updateFeeToken, bind_eq_ok, ensure_eq_ok, pure_eq_ok, exists_const] at hp
  rcases hp with ⟨-, -, hconfig, rfl⟩
  exact h.insertToken hconfig

lemma Sound.removeFeeToken (h : p.Sound) (hp : p.removeFeeToken origin token = .ok p') : p'.Sound := by
  simp only [FeePallet.removeFeeToken, bind_eq_ok, ensure_eq_ok, pure_eq_ok, exists_const] at hp
  rcases hp with ⟨-, -, rfl⟩
  refine ⟨fun t c hc => ?_, h.counted, h.past⟩
  rw [StorageMap.get_remove] at hc
  split_ifs at hc
  exact h.decimals t c hc

lemma Sound.setUserFeeToken (h : p.Sound) {choice : Option H160}
    (hp : p.setUserFeeToken who choice = .ok p') : p'.Sound := by
  cases choice with
  | none =>
      simp only [FeePallet.setUserFeeToken, pure_eq_ok] at hp
      subst hp
      exact ⟨h.decimals, h.counted, h.past⟩
  | some token =>
      simp only [FeePallet.setUserFeeToken, bind_eq_ok, okOr_eq_ok, ensure_eq_ok, pure_eq_ok,
        exists_const] at hp
      rcases hp with ⟨config, -, -, rfl⟩
      exact ⟨h.decimals, h.counted, h.past⟩

lemma Sound.onInitialize (h : p.Sound) : p.onInitialize.Sound where
  decimals := h.decimals
  counted := Nat.zero_le _
  past user i info hi := by cases hi

/-- The entry of a past transaction. -/
lemma Sound.putPayment (h : p.Sound) (hi : p.Past i) (info : FeePaymentInfo) :
    (p.putPayment who i info).Sound where
  decimals := h.decimals
  counted := h.counted
  past user j held hj := by
    simp only [FeePallet.putPayment, StorageMap.get_insert] at hj
    split_ifs at hj with heq
    · cases heq
      exact hi
    · exact h.past user j held hj

end FeePallet

namespace Chain

/-- The index that a transaction takes is past from then on. -/
lemma past_countTransaction (h : s.fees.Sound) :
    s.countTransaction.fees.Past s.fees.currentTxIndex := by
  have hcounted := h.counted
  simp only [FeePallet.Past, countTransaction, saturatingAdd, lastTxIndex] at hcounted ⊢
  omega

lemma sound_countTransaction (h : s.fees.Sound) : s.countTransaction.fees.Sound where
  decimals := h.decimals
  counted := by
    simp only [countTransaction, saturatingAdd, lastTxIndex]
    omega
  past user i info hi := by
    have hcounted := h.counted
    have hpast : s.fees.Past i := h.past user i info hi
    simp only [FeePallet.Past, countTransaction, saturatingAdd, lastTxIndex] at hcounted hpast ⊢
    omega

/-- A withdrawal keeps the storage in order, and what it hands on has a past index. -/
lemma withdrawFee_sound (h : s.fees.Sound) {info : LiquidityInfo}
    (hw : s.withdrawFee host who fee = .ok (s₁, info)) :
    s₁.fees.Sound ∧ ∀ w, info = .erc20Withdrawn w → s₁.fees.Past w.txIndex := by
  have hsound := sound_countTransaction h
  rcases withdrawFee_cases hw with ⟨-, rfl, rfl⟩ | ⟨-, w, rfl, hcharge⟩ | ⟨-, i, rfl, hcharge⟩
  · exact ⟨hsound, fun w hw => by cases hw⟩
  · have hpast : s.countTransaction.fees.Past w.txIndex := hcharge.txIndex ▸ past_countTransaction h
    rw [hcharge.noted]
    refine ⟨hsound.putPayment hpast _, fun w' hw' => ?_⟩
    cases hw'
    exact hpast
  · rw [hcharge.noted]
    exact ⟨hsound, fun w hw => by cases hw⟩

lemma correctNativeFee_fees (correctedFee baseFee : ℕ) (imbalance : Option ℕ) :
    (s.correctNativeFee host who correctedFee baseFee imbalance).1.fees = s.fees := by
  cases imbalance <;> rfl

lemma correctErc20Fee_sound (h : s.fees.Sound) {w : Withdrawal} (hw : s.fees.Past w.txIndex)
    (correctedFee baseFee : ℕ) : (s.correctErc20Fee host who correctedFee baseFee w).1.fees.Sound := by
  rw [correctErc20Fee]
  split_ifs
  · exact h
  · exact h.putPayment hw _

lemma correctAndDepositFee_sound (h : s.fees.Sound) {info : LiquidityInfo}
    (hinfo : ∀ w, info = .erc20Withdrawn w → s.fees.Past w.txIndex) (correctedFee baseFee : ℕ) :
    (s.correctAndDepositFee host who correctedFee baseFee info).1.fees.Sound := by
  cases info with
  | none => exact h
  | native imbalance =>
      rw [correctAndDepositFee, correctNativeFee_fees]
      exact h
  | erc20Withdrawn w => exact correctErc20Fee_sound h (hinfo w rfl) correctedFee baseFee
  | erc20Tip token tipAmount => exact h

lemma payPriorityFee_fees (info : LiquidityInfo) : (s.payPriorityFee host info).fees = s.fees := by
  rcases info with _ | (_ | tip) | w | ⟨token, tipAmount⟩
  · rfl
  · rfl
  · rfl
  · rfl
  · rw [payPriorityFee]
    split_ifs <;> rfl

lemma transact_sound (h : s.fees.Sound) {execute : σ → σ} {correctedFee baseFee : ℕ}
    (ht : s.transact host who fee execute correctedFee baseFee = .ok s₁) : s₁.fees.Sound := by
  simp only [transact, bind_eq_ok, pure_eq_ok, Prod.exists] at ht
  rcases ht with ⟨t, info, hw, rfl⟩
  obtain ⟨hsound, hpast⟩ := withdrawFee_sound h hw
  rw [payPriorityFee_fees]
  exact correctAndDepositFee_sound (s := { t with outer := execute t.outer }) hsound hpast _ _

lemma withdrawCollectedFees_fees {origin : Origin H160} {token target : H160} {amount : ℕ}
    (h : s.withdrawCollectedFees host origin token target amount = .ok s₁) : s₁.fees = s.fees := by
  simp only [withdrawCollectedFees, bind_eq_ok, ensure_eq_ok, pure_eq_ok, exists_const] at h
  rcases h with ⟨-, -, -, -, rfl⟩
  rfl

/-- A call keeps the storage in order if it does so when it succeeds. -/
lemma onFees_sound (h : s.fees.Sound) {r : Except Error FeePallet} (hr : ∀ p, r = .ok p → p.Sound) :
    (s.onFees r).fees.Sound := by
  rw [onFees]
  exact commit_induction h hr

/-- **One step** keeps the storage in order. -/
lemma step_sound (h : s.fees.Sound) {i : Step σ} (hi : s.step host i = some s₁) : s₁.fees.Sound := by
  cases i with
  | addFeeToken origin token config =>
      cases hi
      exact onFees_sound h fun p hp => h.addFeeToken hp
  | removeFeeToken origin token =>
      cases hi
      exact onFees_sound h fun p hp => h.removeFeeToken hp
  | updateFeeToken origin token config =>
      cases hi
      exact onFees_sound h fun p hp => h.updateFeeToken hp
  | setUserFeeToken who token =>
      cases hi
      exact onFees_sound h fun p hp => h.setUserFeeToken hp
  | withdrawCollectedFees origin token target amount =>
      cases hi
      exact commit_induction (P := fun t : Chain σ => t.fees.Sound) h fun t ht => by
        rw [withdrawCollectedFees_fees ht]
        exact h
  | transact who fee execute correctedFee baseFee => exact transact_sound h (toOption_eq_some.mp hi)
  | onInitialize =>
      cases hi
      exact h.onInitialize
  | setAssetOracle origin asset oracleId => cases hi; exact h
  | removeAssetOracle origin asset => cases hi; exact h
  | setNativeCurrencyOracle origin chainId oracleId => cases hi; exact h
  | removeNativeCurrencyOracle origin chainId => cases hi; exact h
  | setOracleManagerContract origin contract => cases hi; exact h
  | removeOracleManagerContract origin => cases hi; exact h
  | setAssetAggregator origin asset aggregatorContract decimal => cases hi; exact h
  | removeAssetAggregator origin asset => cases hi; exact h
  | outside change => cases hi; exact h

/-- Both pallets start with nothing in their storage. -/
structure Genesis (s : Chain σ) : Prop where
  registry : s.registry = OracleRegistry.genesis
  fees : s.fees = FeePallet.genesis

/-- The storage is in order in every run. -/
lemma sound_of_reachable (h : Reachable Genesis (step host) anyStep s) : s.fees.Sound :=
  h.invariant (P := fun t : Chain σ => t.fees.Sound)
    (fun t (ht : t.Genesis) => ht.fees ▸ FeePallet.Sound.genesis)
    fun _ _ _ ht _ hi => step_sound ht hi

/-! ## Amounts -/

/-- **The receipt is right.**  The entry of the transaction has the tokens that left the user's account
less those that came back; `before` and `after` are the two ends of the withdrawal, `executed` and
`corrected` those of the correction. -/
def ReceiptExact (host : Host σ) (log : σ → List Transfer) (before after : σ) (executed : σ)
    (corrected : Chain σ) (who : H160) (w : Withdrawal) (txIndex : ℕ) : Prop :=
  ∃ info, corrected.fees.pendingFeePayments.get (who, txIndex) = some info ∧ info.token = w.token ∧
    flow (log before) w.token who host.feeCollectorAddress + info.amount +
        flow (log corrected.outer) w.token host.feeCollectorAddress who =
      flow (log after) w.token who host.feeCollectorAddress +
        flow (log executed) w.token host.feeCollectorAddress who

/-- Correcting the fee leaves the amount as it is, or lowers it and the token refunds the difference. -/
def Refunded (host : Host σ) (outer : σ) (who : H160) (correctedFee : ℕ) (w : Withdrawal) : Prop :=
  2 ^ 256 ≤ w.amount * correctedFee ∨ w.amount * correctedFee / w.nativeEquivalent = w.amount ∨
    (w.amount * correctedFee / w.nativeEquivalent < w.amount ∧
      (host.transfer outer host.feeCollectorAddress w.token who
        (w.amount - w.amount * correctedFee / w.nativeEquivalent)).2 = true)

/-- What a correction adds to the log. -/
lemma flow_transfer (hexact : host.Exact log) {outer : σ} {source token target : H160} {amount : ℕ}
    (hamount : amount < 2 ^ 256) :
    flow (log (host.transfer outer source token target amount).1) token source target =
      flow (log outer) token source target +
        if (host.transfer outer source token target amount).2 then amount else 0 := by
  rw [log_transfer hexact hamount, flow_append]
  split_ifs
  · rw [flow_moved]
  · rfl

/-- The receipt of a charge in tokens, after the correction. -/
lemma TokenCharge.receipt {w : Withdrawal} (hcharge : TokenCharge host s who fee s₁ w) (hfee : fee ≠ 0)
    (hexact : host.Exact log) (outer : σ) (correctedFee baseFee : ℕ) :
    ReceiptExact host log s.outer s₁.outer outer
        ({ s₁ with outer }.correctErc20Fee host who correctedFee baseFee w).1 who w s.fees.currentTxIndex ↔
      Refunded host outer who correctedFee w := by
  have hnative : w.nativeEquivalent ≠ 0 := hcharge.nativeEquivalent ▸ hfee
  have hamount := hcharge.amount_lt
  have hreceived := congrArg (fun l => flow l w.token who host.feeCollectorAddress)
    (hcharge.received hexact)
  simp only [flow_append, flow_moved] at hreceived
  have hrefund : w.amount - actualTokenAmount w.amount correctedFee w.nativeEquivalent < 2 ^ 256 := by
    omega
  have hflow : flow (log (host.transfer outer host.feeCollectorAddress w.token who _).1) w.token
    host.feeCollectorAddress who = _ := flow_transfer hexact hrefund
  rw [correctErc20Fee_eq hnative, ReceiptExact, ← hcharge.txIndex]
  simp only [FeePallet.putPayment, StorageMap.get_insert_self, Option.some.injEq, exists_eq_left',
    true_and, hflow, hreceived]
  rw [Refunded]
  rcases Nat.lt_or_ge (w.amount * correctedFee) (2 ^ 256) with hfits | hover
  · have hactual : actualTokenAmount w.amount correctedFee w.nativeEquivalent =
        w.amount * correctedFee / w.nativeEquivalent := portion_of_lt hfits hnative _
    rw [hactual]
    cases hok : (host.transfer outer host.feeCollectorAddress w.token who
        (w.amount - w.amount * correctedFee / w.nativeEquivalent)).2 with
    | true =>
        simp only [if_true, and_true]
        omega
    | false =>
        simp only [Bool.false_eq_true, if_false, and_false, or_false]
        omega
  · have hactual : actualTokenAmount w.amount correctedFee w.nativeEquivalent = w.amount :=
      portion_of_le hover _ _
    rw [hactual, Nat.sub_self]
    split_ifs <;> omega

/-- Native payments have no entry unless the counter stands still. -/
lemma pending_of_sound (h : s.fees.Sound) (user : H160)
    (hlast : s.fees.currentTxIndex = lastTxIndex →
      s.fees.pendingFeePayments.get (user, lastTxIndex) = none) :
    s.fees.pendingFeePayments.get (user, s.fees.currentTxIndex) = none := by
  cases hget : s.fees.pendingFeePayments.get (user, s.fees.currentTxIndex) with
  | none => rfl
  | some info =>
      rcases h.past user _ info hget with hlt | hstop
      · exact absurd hlt (Nat.lt_irrefl _)
      · rw [hstop, hlast hstop] at hget
        cases hget

end Chain

/-! ## Results -/

/-- **When receipts are right.**  In every run, the entry of a transaction that was paid in tokens is what
the user has paid exactly when the correction takes nothing off or its refund goes through; and one that
was paid in the native currency has no entry exactly when none was left under the last index. -/
theorem receipts_exact_iff (hexact : host.Exact log)
    (hs : Reachable Chain.Genesis (Chain.step host) anyStep s) {withdrawn tip : LiquidityInfo}
    (hw : s.withdrawFee host who fee = .ok (s₁, withdrawn)) (outer : σ) (correctedFee baseFee : ℕ)
    (hc : Chain.correctAndDepositFee host { s₁ with outer } who correctedFee baseFee withdrawn =
      (s₃, tip)) :
    (∀ w, withdrawn = .erc20Withdrawn w →
      (Chain.ReceiptExact host log s.outer s₁.outer outer s₃ who w s.fees.currentTxIndex ↔
        Chain.Refunded host outer who correctedFee w)) ∧
    ∀ imbalance, withdrawn = .native imbalance →
      ((∀ user, s₃.fees.pendingFeePayments.get (user, s.fees.currentTxIndex) = none) ↔
        (s.fees.currentTxIndex = lastTxIndex →
          ∀ user, s.fees.pendingFeePayments.get (user, lastTxIndex) = none)) := by
  have hsound := Chain.sound_of_reachable hs
  rcases Chain.withdrawFee_cases hw with ⟨-, rfl, -⟩ | ⟨hfee, w, rfl, hcharge⟩ | ⟨-, i, rfl, hcharge⟩
  · exact ⟨fun w hw => (by cases hw), fun i hi => (by cases hi)⟩
  · refine ⟨fun w' hw' => ?_, fun i hi => (by cases hi)⟩
    cases hw'
    have hreceipt := hcharge.receipt hfee hexact outer correctedFee baseFee
    rw [Chain.correctAndDepositFee] at hc
    rw [hc] at hreceipt
    exact hreceipt
  · refine ⟨fun w hw => (by cases hw), fun _ _ => ?_⟩
    have hfees : s₃.fees = s.countTransaction.fees := by
      have hkept : (Chain.correctAndDepositFee host { s₁ with outer } who correctedFee baseFee
          (.native (some i))).1.fees = s₁.fees := Chain.correctNativeFee_fees _ _ _
      rw [hc] at hkept
      exact hkept.trans hcharge.noted
    have hpending : s₃.fees.pendingFeePayments = s.fees.pendingFeePayments := by
      rw [hfees]
      rfl
    rw [hpending]
    constructor
    · intro hnone hstop user
      rw [← hstop]
      exact hnone user
    · intro hlast user
      exact Chain.pending_of_sound hsound user fun hstop => hlast hstop user

/-- The calls after which user 5 pays in token 7. -/
def tillSteps : List (Chain.Step Till) :=
  [.setNativeCurrencyOracle .root 1 1, .setAssetOracle .root 7 2, .setOracleManagerContract .root 6,
    .addFeeToken .root 7 ⟨true, 6, 0, 0⟩, .setUserFeeToken 5 (some 7)]

lemma tillChain_reachable (q : Quotes) :
    Reachable Chain.Genesis (Chain.step (till q)) anyStep tillChain := by
  have hgenesis : Chain.Genesis (⟨.genesis, .genesis, ⟨[], false⟩⟩ : Chain Till) := ⟨rfl, rfl⟩
  have hrun : runSteps (Chain.step (till q)) ⟨.genesis, .genesis, ⟨[], false⟩⟩ tillSteps =
      some tillChain := rfl
  exact (Reachable.init hgenesis).runSteps hrun

/-- A dollar for a dollar. -/
def parQuotes : Quotes := ⟨10 ^ 18, 10 ^ 18, 1⟩

/-- A fee of one native token takes one token of six decimals. -/
def tillWithdrawal : Withdrawal := ⟨7, 10 ^ 6, 10 ^ 18, 0, 10 ^ 18, 10 ^ 18⟩

lemma tillCharge_exists :
    ∃ s₁, tillChain.withdrawFee (till parQuotes) 5 (10 ^ 18) =
      .ok (s₁, .erc20Withdrawn tillWithdrawal) := by
  have h : (tillChain.withdrawFee (till parQuotes) 5 (10 ^ 18)).toOption.any
      (fun r => r.2 = .erc20Withdrawn tillWithdrawal) = true := by decide +kernel
  cases hw : tillChain.withdrawFee (till parQuotes) 5 (10 ^ 18) with
  | error e => rw [hw] at h; cases h
  | ok r =>
      obtain ⟨s₁, info⟩ := r
      rw [hw] at h
      have hinfo : info = .erc20Withdrawn tillWithdrawal := of_decide_eq_true h
      exact ⟨s₁, by rw [hinfo]⟩

/-- **A refund that fails** is noted as if it had been paid. -/
theorem receipts_inexact :
    ∃ s₁ s₃ tip, Reachable Chain.Genesis (Chain.step (till parQuotes)) anyStep tillChain ∧
      tillChain.withdrawFee (till parQuotes) 5 (10 ^ 18) = .ok (s₁, .erc20Withdrawn tillWithdrawal) ∧
      Chain.correctAndDepositFee (till parQuotes) { s₁ with outer := ⟨s₁.outer.log, true⟩ } 5
        (10 ^ 18 / 2) (10 ^ 18 / 2) (.erc20Withdrawn tillWithdrawal) = (s₃, tip) ∧
      ¬ Chain.ReceiptExact (till parQuotes) Till.log tillChain.outer s₁.outer ⟨s₁.outer.log, true⟩ s₃ 5
        tillWithdrawal tillChain.fees.currentTxIndex := by
  obtain ⟨s₁, hw⟩ := tillCharge_exists
  refine ⟨s₁, _, _, tillChain_reachable _, hw, rfl, ?_⟩
  rcases Chain.withdrawFee_cases hw with ⟨-, h, -⟩ | ⟨hfee, w, h, hcharge⟩ | ⟨-, i, h, -⟩
  · cases h
  · cases h
    have hreceipt := hcharge.receipt hfee (till_exact parQuotes) ⟨s₁.outer.log, true⟩ (10 ^ 18 / 2)
      (10 ^ 18 / 2)
    refine fun hexact => ?_
    rcases hreceipt.mp hexact with h | h | ⟨-, h⟩
    · exact absurd h (by decide +kernel)
    · exact absurd h (by decide +kernel)
    · cases h
  · cases h

/-- With the token in operation half of it comes back. -/
theorem receipts_exact_iff_till :
    ∃ s₁ s₃ tip, tillChain.withdrawFee (till parQuotes) 5 (10 ^ 18) =
        .ok (s₁, .erc20Withdrawn tillWithdrawal) ∧
      Chain.correctAndDepositFee (till parQuotes) { s₁ with outer := ⟨s₁.outer.log, false⟩ } 5
        (10 ^ 18 / 2) (10 ^ 18 / 2) (.erc20Withdrawn tillWithdrawal) = (s₃, tip) ∧
      Chain.ReceiptExact (till parQuotes) Till.log tillChain.outer s₁.outer ⟨s₁.outer.log, false⟩ s₃ 5
        tillWithdrawal tillChain.fees.currentTxIndex := by
  obtain ⟨s₁, hw⟩ := tillCharge_exists
  refine ⟨s₁, _, _, hw, rfl, ?_⟩
  refine ((receipts_exact_iff (till_exact parQuotes) (tillChain_reachable parQuotes) hw
    ⟨s₁.outer.log, false⟩ (10 ^ 18 / 2) (10 ^ 18 / 2) rfl).1 _ rfl).mpr (.inr (.inr ⟨by decide +kernel, rfl⟩))

end BifrostNode.Fees
