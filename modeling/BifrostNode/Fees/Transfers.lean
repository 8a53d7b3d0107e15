import BifrostNode.Fees.Payment

/-!
# The tokens of a transaction

**Tokens** are contracts outside.  `Host.Exact` is what is assumed of them: a transfer that is reported as a
success has moved exactly its amount, and one that is not has moved nothing.  The log of the transfers says
what has moved.

**Withdrawals.**  `withdrawFee_cases` is what `withdraw_fee` does when it returns: nothing for a fee of zero,
and otherwise a charge in tokens or one in the native currency.

**Conservation.**  What `correct_erc20_fee` gives back and what it lets the transaction use are the amount
that was withdrawn, and the tip is a part of the second (`erc20Fee_conserved`), whichever of the products
overflow.
-/

namespace BifrostNode.Fees

open Cccp Staking Transition Words

/-! ## Moved tokens -/

structure Transfer where
  token : H160
  source : H160
  target : H160
  amount : ℕ
  deriving DecidableEq

/-- What an account has sent to another. -/
def flow (log : List Transfer) (token source target : H160) : ℕ :=
  ((log.filter fun t => t.token = token ∧ t.source = source ∧ t.target = target).map
    Transfer.amount).sum

/-- **Tokens are exact.**  The log grows by the transfer that is reported, and by nothing otherwise. -/
def Host.Exact {σ : Type} (host : Host σ) (log : σ → List Transfer) : Prop :=
  ∀ outer source token target amount, amount < 2 ^ 256 →
    log (host.callTransfer outer source token target amount).1 =
      log outer ++
        if reported (host.callTransfer outer source token target amount).2 then
          [⟨token, source, target, amount⟩]
        else []

/-- The transfer of an amount, if there is something to move. -/
def moved (token source target : H160) (amount : ℕ) : List Transfer :=
  if amount = 0 then [] else [⟨token, source, target, amount⟩]

lemma flow_append (l l' : List Transfer) (token source target : H160) :
    flow (l ++ l') token source target = flow l token source target + flow l' token source target := by
  simp only [flow, List.filter_append, List.map_append, List.sum_append]

lemma flow_moved (token source target : H160) (amount : ℕ) :
    flow (moved token source target amount) token source target = amount := by
  rw [moved]
  split_ifs with h
  · rw [h]
    rfl
  · simp [flow]

lemma sum_moved (token source target : H160) (amount : ℕ) :
    ((moved token source target amount).map Transfer.amount).sum = amount := by
  rw [moved]
  split_ifs with h
  · rw [h]
    rfl
  · simp

section Tokens

variable {σ : Type} {host : Host σ} {log : σ → List Transfer} {outer : σ} {s s₁ : Chain σ}
  {who source token target : H160} {amount fee : ℕ}

/-- What a transfer of the pallet moves. -/
lemma log_transfer (hexact : host.Exact log) (hamount : amount < 2 ^ 256) :
    log (host.transfer outer source token target amount).1 =
      log outer ++
        if (host.transfer outer source token target amount).2 then moved token source target amount
        else [] := by
  rw [Host.transfer, moved]
  by_cases hzero : amount = 0
  · simp only [if_pos hzero, if_true]
    exact (List.append_nil _).symm
  · simp only [if_neg hzero]
    exact hexact outer source token target amount hamount

lemma log_transfer_of_ok (hexact : host.Exact log) (hamount : amount < 2 ^ 256) {o : σ}
    (h : host.transfer outer source token target amount = (o, true)) :
    log o = log outer ++ moved token source target amount := by
  have hlog : log (host.transfer outer source token target amount).1 = _ := log_transfer hexact hamount
  rw [h] at hlog
  exact hlog

/-! ## A token -/

lemma length_toBigEndian (width n : ℕ) : (toBigEndian width n).length = width := by
  induction width generalizing n with
  | zero => rfl
  | succ width ih => simp only [toBigEndian, List.length_append, ih, List.length_singleton]

/-- What is read back is the number, as far as it fits. -/
lemma ofBeBytes_toBigEndian (width n : ℕ) : ofBeBytes (toBigEndian width n) = n % 256 ^ width := by
  induction width generalizing n with
  | zero => simp [toBigEndian, ofBeBytes, Nat.mod_one]
  | succ width ih =>
      have hlast : ofBeBytes (toBigEndian (width + 1) n) = n / 256 % 256 ^ width * 256 + n % 256 := by
        have hbyte : (UInt8.ofNat n).toNat = n % 256 := by simp
        rw [← hbyte, ← ih (n / 256)]
        simp only [toBigEndian, ofBeBytes, List.foldl_append, List.foldl_cons, List.foldl_nil]
      rw [hlast, pow_succ, Nat.mul_comm (256 ^ width) 256, Nat.mod_mul]
      ring

end Tokens

/-- A small chain: the log of one token, which its owner can pause, and an author. -/
structure Till where
  log : List Transfer
  paused : Bool
  deriving DecidableEq

/-- The prices that the contracts of the small chain tell. -/
structure Quotes where
  native : ℕ
  token : ℕ
  answer : ℕ

/-- The answer of `last_oracle_info`, for the oracle ids 1 (the native currency) and 2, and that of
`latestRoundData`. -/
def Quotes.tell (q : Quotes) (input : Bytes) : Bytes :=
  let price :=
    if input = OracleInfo.encodeCalldata 1 then q.native
    else if input = OracleInfo.encodeCalldata 2 then q.token
    else q.answer
  List.replicate 32 0 ++ toBigEndian 32 price ++ List.replicate 128 0

/-- A token that moves what it is asked for unless it is paused. -/
def till (q : Quotes) : Host Till where
  callAsInternalCall o source token input _ :=
    if o.paused then (o, some ⟨.other, []⟩)
    else
      ({ o with
          log := o.log ++
            [⟨token, source, Fin.ofNat (2 ^ 160) (ofBeBytes ((input.drop 4).take 32)),
              ofBeBytes (input.drop 36)⟩] },
        some ⟨.succeed, List.replicate 31 0 ++ [1]⟩)
  viewCall _ _ _ input _ := some ⟨.succeed, q.tell input⟩
  now _ := 0
  findAuthor _ := 9
  withdraw o _ amount := some (o, amount)
  depositIntoExisting o _ amount := some (o, amount)
  onUnbalanced o _ := o
  feeCollectorAddress := 8
  nativeChainId := 1

/-- User 5 pays in token 7, which has 6 decimals. -/
def tillChain : Chain Till where
  registry := ⟨(StorageMap.empty.insert (.nativeCurrency 1) 1).insert (.asset 7) 2, ∅, some 6⟩
  fees :=
    { FeePallet.genesis with
      acceptedFeeTokens := StorageMap.empty.insert 7 ⟨true, 6, 0, 0⟩
      userFeeToken := StorageMap.empty.insert 5 7 }
  outer := ⟨[], false⟩

lemma till_exact (q : Quotes) : (till q).Exact Till.log := by
  intro o source token target amount hamount
  cases hpaused : o.paused with
  | true => simp [Host.callTransfer, till, hpaused, reported]
  | false =>
      have htarget : ofBeBytes (((encodeTransfer target amount).drop 4).take 32) = target.val := by
        have hlen := length_toBigEndian 32 target.val
        have hbytes : ((encodeTransfer target amount).drop 4).take 32 = toBigEndian 32 target.val := by
          simp [encodeTransfer, hlen]
        have hlt : target.val < 256 ^ 32 := target.isLt.trans (by norm_num)
        rw [hbytes, ofBeBytes_toBigEndian, Nat.mod_eq_of_lt hlt]
      have hsum : ofBeBytes ((encodeTransfer target amount).drop 36) = amount := by
        have hlen := length_toBigEndian 32 target.val
        have hbytes : (encodeTransfer target amount).drop 36 = toBigEndian 32 amount := by
          simp [encodeTransfer, hlen]
        have hlt : amount < 256 ^ 32 := hamount.trans_eq (by norm_num)
        rw [hbytes, ofBeBytes_toBigEndian, Nat.mod_eq_of_lt hlt]
      have hreported : reported (some ⟨.succeed, List.replicate 31 0 ++ [1]⟩) = true := by decide
      simp only [Host.callTransfer, till, hpaused, Bool.false_eq_true, if_false, htarget, hsum, hreported,
        if_true]
      rw [Fin.ofNat_eq_cast, Fin.cast_val_eq_self]

section Tokens

variable {σ : Type} {host : Host σ} {log : σ → List Transfer} {outer : σ} {s s₁ : Chain σ}
  {who source token target : H160} {amount fee : ℕ}

/-! ## Withdrawals -/

namespace Chain

/-- A fee that was taken in tokens. -/
structure TokenCharge (host : Host σ) (s : Chain σ) (who : H160) (fee : ℕ) (s₁ : Chain σ)
    (w : Withdrawal) : Prop where
  enabled : s.isErc20FeeEnabled host = true
  preferred : s.fees.userFeeToken.get who = some w.token
  nativeEquivalent : w.nativeEquivalent = fee
  txIndex : w.txIndex = s.fees.currentTxIndex
  converted : s.convertNativeToTokenWithPrices host fee w.token = .ok (w.amount, w.tokenPrice, w.nativePrice)
  taken : host.executeFeeTransfer s.outer who w.token w.amount = (s₁.outer, true)
  noted : s₁.fees = s.countTransaction.fees.putPayment who w.txIndex
    ⟨w.token, w.amount, w.nativeEquivalent, w.tokenPrice, w.nativePrice⟩
  registry : s₁.registry = s.registry

/-- A fee that was taken in the native currency, maybe after a transfer that failed. -/
structure NativeCharge (host : Host σ) (s : Chain σ) (who : H160) (fee : ℕ) (s₁ : Chain σ)
    (imbalance : ℕ) : Prop where
  withdrawn : ∃ outer, host.withdraw outer who (saturated fee) = some (s₁.outer, imbalance) ∧
    (outer = s.outer ∨ ∃ token amount, host.executeFeeTransfer s.outer who token amount = (outer, false))
  noted : s₁.fees = s.countTransaction.fees
  registry : s₁.registry = s.registry

lemma withdrawNativeFee_ok {t : Chain σ} {info : LiquidityInfo}
    (h : t.withdrawNativeFee host who fee = .ok (s₁, info)) :
    ∃ imbalance, info = .native (some imbalance) ∧
      host.withdraw t.outer who (saturated fee) = some (s₁.outer, imbalance) ∧ s₁.fees = t.fees ∧
      s₁.registry = t.registry := by
  simp only [withdrawNativeFee, bind_eq_ok, okOr_eq_ok, pure_eq_ok, Prod.exists, Prod.mk.injEq] at h
  rcases h with ⟨outer, imbalance, hwithdraw, rfl, rfl⟩
  exact ⟨imbalance, rfl, hwithdraw, rfl, rfl⟩

/-- A native charge before anything else was tried. -/
lemma NativeCharge.of_first {info : LiquidityInfo}
    (h : s.countTransaction.withdrawNativeFee host who fee = .ok (s₁, info)) :
    ∃ imbalance, info = .native (some imbalance) ∧ NativeCharge host s who fee s₁ imbalance := by
  rcases withdrawNativeFee_ok h with ⟨imbalance, rfl, hwithdraw, hfees, hregistry⟩
  exact ⟨imbalance, rfl, ⟨s.outer, hwithdraw, .inl rfl⟩, hfees, hregistry⟩

lemma takeTokens_cases {w : Withdrawal} {info : LiquidityInfo}
    (h : s.countTransaction.takeTokens host who fee w = .ok (s₁, info)) :
    (info = .erc20Withdrawn w ∧ host.executeFeeTransfer s.outer who w.token w.amount = (s₁.outer, true) ∧
      s₁.fees = s.countTransaction.fees.putPayment who w.txIndex
        ⟨w.token, w.amount, w.nativeEquivalent, w.tokenPrice, w.nativePrice⟩ ∧
      s₁.registry = s.registry) ∨
    ∃ imbalance, info = .native (some imbalance) ∧ NativeCharge host s who fee s₁ imbalance := by
  rw [takeTokens] at h
  cases htransfer : host.executeFeeTransfer s.outer who w.token w.amount with
  | mk outer ok =>
      have htransfer' :
          host.executeFeeTransfer s.countTransaction.outer who w.token w.amount = (outer, ok) := htransfer
      rw [htransfer'] at h
      cases ok with
      | true =>
          simp only [if_true, Except.ok.injEq, Prod.mk.injEq] at h
          rcases h with ⟨rfl, rfl⟩
          exact .inl ⟨rfl, rfl, rfl, rfl⟩
      | false =>
          simp only [Bool.false_eq_true, if_false, fallbackToNative] at h
          rcases withdrawNativeFee_ok h with ⟨imbalance, rfl, hwithdraw, hfees, hregistry⟩
          exact .inr ⟨imbalance, rfl, ⟨outer, hwithdraw, .inr ⟨w.token, w.amount, htransfer⟩⟩, hfees,
            hregistry⟩

/-- **What `withdraw_fee` does** when it returns. -/
lemma withdrawFee_cases {info : LiquidityInfo} (h : s.withdrawFee host who fee = .ok (s₁, info)) :
    (fee = 0 ∧ info = .none ∧ s₁ = s.countTransaction) ∨
    (fee ≠ 0 ∧ ∃ w, info = .erc20Withdrawn w ∧ TokenCharge host s who fee s₁ w) ∨
    (fee ≠ 0 ∧ ∃ imbalance, info = .native (some imbalance) ∧ NativeCharge host s who fee s₁ imbalance) := by
  have hcount : s.countTransaction.isErc20FeeEnabled host = s.isErc20FeeEnabled host := rfl
  simp only [withdrawFee, hcount] at h
  split_ifs at h with hfee henabled
  · simp only [Except.ok.injEq, Prod.mk.injEq] at h
    rcases h with ⟨rfl, rfl⟩
    exact .inl ⟨hfee, rfl, rfl⟩
  · exact .inr (.inr ⟨hfee, NativeCharge.of_first h⟩)
  · cases htoken : s.fees.userFeeToken.get who with
    | none =>
        have htoken' : s.countTransaction.fees.userFeeToken.get who = none := htoken
        rw [htoken'] at h
        exact .inr (.inr ⟨hfee, NativeCharge.of_first h⟩)
    | some token =>
        have htoken' : s.countTransaction.fees.userFeeToken.get who = some token := htoken
        rw [htoken'] at h
        simp only [withdrawErc20Fee] at h
        split at h
        · exact .inr (.inr ⟨hfee, NativeCharge.of_first h⟩)
        · split_ifs at h
          · exact .inr (.inr ⟨hfee, NativeCharge.of_first h⟩)
          · split at h
            · rename_i amount tokenPrice nativePrice hconverted
              rcases takeTokens_cases h with ⟨rfl, htaken, hnoted, hregistry⟩ | hnative
              · exact .inr (.inl ⟨hfee, _, rfl, Bool.of_not_eq_false henabled, htoken, rfl, rfl, hconverted,
                  htaken, hnoted, hregistry⟩)
              · exact .inr (.inr ⟨hfee, hnative⟩)
            · exact .inr (.inr ⟨hfee, NativeCharge.of_first h⟩)
            · cases h

/-! ## Corrections -/

lemma actualTokenAmount_le {withdrawn correctedFee nativeEquivalent : ℕ} (hnative : nativeEquivalent ≠ 0)
    (h : correctedFee ≤ nativeEquivalent) :
    actualTokenAmount withdrawn correctedFee nativeEquivalent ≤ withdrawn := portion_le hnative h

lemma tipTokenAmount_le (actual correctedFee baseFee : ℕ) :
    tipTokenAmount actual correctedFee baseFee ≤ actual := by
  rw [tipTokenAmount]
  split_ifs
  · exact Nat.sub_le _ _
  · exact Nat.zero_le _

/-- The tip is less than one unit above its share of the amount. -/
lemma tipTokenAmount_lt {actual correctedFee baseFee : ℕ} (h : baseFee < correctedFee) :
    tipTokenAmount actual correctedFee baseFee * correctedFee <
      actual * (correctedFee - baseFee) + correctedFee := by
  rw [tipTokenAmount, if_pos ⟨h, by omega⟩]
  exact rest_mul_lt h

lemma tipTokenAmount_of_le {actual correctedFee baseFee : ℕ} (h : correctedFee ≤ baseFee) :
    tipTokenAmount actual correctedFee baseFee = 0 := if_neg fun hlt => absurd hlt.1 (by omega)

/-- What `correct_erc20_fee` does, whether there is something to refund or not. -/
lemma correctErc20Fee_eq {w : Withdrawal} (hnative : w.nativeEquivalent ≠ 0) (correctedFee baseFee : ℕ) :
    s.correctErc20Fee host who correctedFee baseFee w =
      ({ s with
          outer := (host.transfer s.outer host.feeCollectorAddress w.token who
            (w.amount - actualTokenAmount w.amount correctedFee w.nativeEquivalent)).1
          fees := s.fees.putPayment who w.txIndex
            ⟨w.token, actualTokenAmount w.amount correctedFee w.nativeEquivalent, correctedFee,
              w.tokenPrice, w.nativePrice⟩ },
        .erc20Tip w.token
          (tipTokenAmount (actualTokenAmount w.amount correctedFee w.nativeEquivalent) correctedFee
            baseFee)) := by
  rw [correctErc20Fee, if_neg hnative]
  simp only [Host.refundToken, Host.transferToUser]
  by_cases hzero : w.amount - actualTokenAmount w.amount correctedFee w.nativeEquivalent = 0
  · simp only [if_pos hzero, Host.transfer]
  · simp only [if_neg hzero]

/-- A tip of zero is paid by doing nothing. -/
lemma payPriorityFee_outer (tipAmount : ℕ) :
    (s.payPriorityFee host (.erc20Tip token tipAmount)).outer =
      (host.transfer s.outer host.feeCollectorAddress token (host.findAuthor s.outer) tipAmount).1 := by
  rw [payPriorityFee]
  by_cases hzero : tipAmount = 0
  · rw [if_pos hzero, Host.transfer, if_pos hzero]
  · rw [if_neg hzero]
    rfl

/-- What the collector sends goes out as one transfer at most. -/
lemma sent_le (hexact : host.Exact log) (outer : σ) (source token target : H160)
    (hamount : amount < 2 ^ 256) :
    ∃ sent, log (host.transfer outer source token target amount).1 = log outer ++ sent ∧
      (∀ t ∈ sent, t.token = token ∧ t.source = source) ∧ (sent.map Transfer.amount).sum ≤ amount := by
  refine ⟨_, log_transfer hexact hamount, ?_, ?_⟩
  · intro t ht
    split_ifs at ht
    · rw [moved] at ht
      split_ifs at ht
      · cases ht
      · rw [List.mem_singleton] at ht
        subst ht
        exact ⟨rfl, rfl⟩
    · cases ht
  · split_ifs
    · exact (sum_moved token source target amount).le
    · exact Nat.zero_le _

lemma tokenAmount_lt {nativeFee nativePrice tokenPrice : ℕ} {decimals : UInt8}
    (h : tokenAmount nativeFee nativePrice tokenPrice decimals = some amount) : amount < 2 ^ 256 := by
  simp only [tokenAmount, Option.bind_eq_bind, Option.bind_eq_some_iff, checkedMul_eq_some,
    checkedDiv_eq_some] at h
  rcases h with ⟨value, -, raised, ⟨hraised, rfl⟩, part, ⟨-, rfl⟩, -, rfl⟩
  exact ((Nat.div_le_self _ _).trans (Nat.div_le_self _ _)).trans_lt hraised

/-- What a conversion has gone by. -/
lemma convert_eq_ok {tokenPrice nativePrice : ℕ} :
    s.convertNativeToTokenWithPrices host fee token = .ok (amount, tokenPrice, nativePrice) ↔
      ∃ config, s.fees.acceptedFeeTokens.get token = some config ∧ config.enabled = true ∧
        s.getBfcUsdPrice host = .ok nativePrice ∧ s.tokenUsdPrice host token config = .ok tokenPrice ∧
        tokenAmount fee nativePrice tokenPrice config.decimals = some amount := by
  simp only [convertNativeToTokenWithPrices, bind_eq_ok, okOr_eq_ok, ensure_eq_ok, pure_eq_ok,
    exists_const, Prod.mk.injEq]
  constructor
  · rintro ⟨config, hconfig, henabled, np, hnp, tp, htp, a, ha, rfl, rfl, rfl⟩
    exact ⟨config, hconfig, henabled, hnp, htp, ha⟩
  · rintro ⟨config, hconfig, henabled, hnp, htp, ha⟩
    exact ⟨config, hconfig, henabled, nativePrice, hnp, tokenPrice, htp, amount, ha, rfl, rfl, rfl⟩

lemma TokenCharge.amount_lt {w : Withdrawal} (h : TokenCharge host s who fee s₁ w) :
    w.amount < 2 ^ 256 := by
  rcases convert_eq_ok.mp h.converted with ⟨config, -, -, -, -, hamount⟩
  exact tokenAmount_lt hamount

/-- The collector has received the amount of the charge. -/
lemma TokenCharge.received {w : Withdrawal} (h : TokenCharge host s who fee s₁ w)
    (hexact : host.Exact log) :
    log s₁.outer = log s.outer ++ moved w.token who host.feeCollectorAddress w.amount :=
  log_transfer_of_ok hexact h.amount_lt h.taken

end Chain

end Tokens

/-! ## Results -/

/-- **No token is lost or made up.**  The refund and the amount that is used are what was withdrawn, the tip
is a part of the amount that is used, and the collector sends at most what it has received. -/
theorem erc20Fee_conserved {σ : Type} {host : Host σ} {log : σ → List Transfer} (hexact : host.Exact log)
    (s : Chain σ) (who : H160) {w : Withdrawal} {correctedFee : ℕ} (baseFee : ℕ)
    (hamount : w.amount < 2 ^ 256) (hnative : 0 < w.nativeEquivalent)
    (hle : correctedFee ≤ w.nativeEquivalent) :
    ∃ s₂ refund actual tip,
      s.correctErc20Fee host who correctedFee baseFee w = (s₂, .erc20Tip w.token tip) ∧
      s₂.outer = (host.transfer s.outer host.feeCollectorAddress w.token who refund).1 ∧
      (s₂.fees.pendingFeePayments.get (who, w.txIndex)).map FeePaymentInfo.amount = some actual ∧
      refund + actual = w.amount ∧ tip ≤ actual ∧
      (w.amount * correctedFee < 2 ^ 256 →
        actual = w.amount * correctedFee / w.nativeEquivalent ∧
          tip * correctedFee ≤ actual * (correctedFee - baseFee) + correctedFee) ∧
      (∃ sent, log (s₂.payPriorityFee host (.erc20Tip w.token tip)).outer = log s.outer ++ sent ∧
        (∀ t ∈ sent, t.token = w.token ∧ t.source = host.feeCollectorAddress) ∧
        (sent.map Transfer.amount).sum ≤ w.amount) ∧
      ∀ s₀ s₁ fee, Chain.withdrawFee host s₀ who fee = .ok (s₁, .erc20Withdrawn w) →
        log s₁.outer = log s₀.outer ++ moved w.token who host.feeCollectorAddress w.amount := by
  set actual := Chain.actualTokenAmount w.amount correctedFee w.nativeEquivalent with hactual
  set tip := Chain.tipTokenAmount actual correctedFee baseFee with htip
  have hused : actual ≤ w.amount := Chain.actualTokenAmount_le (by omega) hle
  have hpart : tip ≤ actual := Chain.tipTokenAmount_le _ _ _
  refine ⟨_, w.amount - actual, actual, tip, Chain.correctErc20Fee_eq (by omega) _ _, rfl, ?_, by omega,
    hpart, ?_, ?_, ?_⟩
  · simp only [FeePallet.putPayment, StorageMap.get_insert_self, Option.map_some]
    rfl
  · intro hfits
    refine ⟨portion_of_lt hfits (by omega) _, ?_⟩
    rcases Nat.lt_or_ge baseFee correctedFee with hbase | hbase
    · exact (Chain.tipTokenAmount_lt hbase).le
    · rw [htip, Chain.tipTokenAmount_of_le hbase, Nat.zero_mul]
      exact Nat.zero_le _
  · rw [Chain.payPriorityFee_outer]
    have hrefund : w.amount - actual < 2 ^ 256 := by omega
    have htip' : tip < 2 ^ 256 := by omega
    obtain ⟨refunds, hrefunds, hfrom, hsum⟩ :=
      Chain.sent_le hexact s.outer host.feeCollectorAddress w.token who hrefund
    obtain ⟨tips, htips, hfrom', hsum'⟩ := Chain.sent_le hexact _ _ _ _ htip'
    refine ⟨refunds ++ tips, ?_, ?_, ?_⟩
    · rw [htips, hrefunds, List.append_assoc]
    · intro t ht
      rcases List.mem_append.mp ht with ht | ht
      · exact hfrom t ht
      · exact hfrom' t ht
    · rw [List.map_append, List.sum_append]
      omega
  · intro s₀ s₁ fee h
    rcases Chain.withdrawFee_cases h with ⟨-, h, -⟩ | ⟨-, w', h, hcharge⟩ | ⟨-, i, h, -⟩
    · cases h
    · cases h
      exact hcharge.received hexact
    · cases h

/-- Of ten tokens for a fee of 100, seven are used by one of 70. -/
theorem erc20Fee_conserved_till :
    ∃ s₂ refund actual tip,
      tillChain.correctErc20Fee (till ⟨1, 1, 1⟩) 5 70 30 ⟨7, 10, 100, 0, 1, 1⟩ = (s₂, .erc20Tip 7 tip) ∧
      refund + actual = 10 ∧ tip ≤ actual ∧ actual = 10 * 70 / 100 := by
  have h := erc20Fee_conserved (till_exact ⟨1, 1, 1⟩) tillChain 5 (w := ⟨7, 10, 100, 0, 1, 1⟩) 30
    (by norm_num) (by norm_num) (show 70 ≤ 100 by norm_num)
  obtain ⟨s₂, refund, actual, tip, hcorrect, -, -, hsum, htip, hfits, -⟩ := h
  exact ⟨s₂, refund, actual, tip, hcorrect, hsum, htip, (hfits (by norm_num)).1⟩

end BifrostNode.Fees
