import BifrostNode.Fees.Receipts

/-!
# What a fee costs in tokens

**Prices.**  A price is never zero.  That of an aggregator is its answer with 18 decimals, rounded down,
unless that takes more than 256 bits; and with 96 decimals or more it panics.  Any other failure makes the
fee fall back to the native currency.  `PricesSafe` is all of it, `ReachesAggregator` is when a fee depends
on the price of an aggregator, and `prices_safe_iff` says when nothing goes wrong.

**Amounts.**  The amount is the worth of the fee rounded down, so it misses less than one unit
(`tokenAmount_eq`).  A fee that is worth less than one unit is taken in tokens all the same, for nothing
(`charges_covered_iff`).
-/

namespace BifrostNode.Fees

open Cccp Staking Transition Words

variable {σ : Type} {host : Host σ} {log : σ → List Transfer} {s s₁ : Chain σ} {r : OracleRegistry}
  {outer : σ} {who token : H160} {fee price nativePrice tokenPrice maxStalenessSeconds : ℕ}
  {config : FeeTokenConfig} {info : AggregatorInfo} {roundData : AggregatorRoundData}

/-! ## Prices -/

lemma ofBeBytes_lt (b : Bytes) : ofBeBytes b < 256 ^ b.length := by
  induction b using List.reverseRecOn with
  | nil => simp [ofBeBytes]
  | append_singleton b x ih =>
      have hx : x.toNat < 256 := x.toNat_lt
      have hsplit : ofBeBytes (b ++ [x]) = ofBeBytes b * 256 + x.toNat := by
        simp only [ofBeBytes, List.foldl_append, List.foldl_cons, List.foldl_nil]
      rw [hsplit, List.length_append, List.length_singleton, pow_succ]
      omega

lemma wordAt_lt (data : Bytes) (i : ℕ) : wordAt data i < 2 ^ 256 := by
  have hlen : ((data.drop (32 * i)).take 32).length ≤ 32 := List.length_take_le _ _
  have hpow : 256 ^ ((data.drop (32 * i)).take 32).length ≤ 256 ^ 32 :=
    Nat.pow_le_pow_right (by decide) hlen
  have hword : (256 : ℕ) ^ 32 = 2 ^ 256 := by norm_num
  exact (ofBeBytes_lt _).trans_le (hpow.trans_eq hword)

/-- The answer of an aggregator is a word. -/
lemma answer_lt (h : r.getLatestRoundData host outer token = some roundData) :
    roundData.answer < 2 ^ 256 := by
  simp only [OracleRegistry.getLatestRoundData, Option.bind_eq_bind, Option.bind_eq_some_iff,
    AggregatorRoundData.decodeReturn] at h
  rcases h with ⟨aggregator, -, data, -, h⟩
  split_ifs at h
  rw [← Option.some.inj h]
  exact wordAt_lt data 1

/-- What a price of the oracle manager is. -/
lemma getOraclePriceFromRegistry_ok {oracleId : H256}
    (h : getOraclePriceFromRegistry host r outer oracleId maxStalenessSeconds = .ok price) :
    price ≠ 0 ∧ ∃ info, r.getLatestOracleInfo host outer oracleId = some info ∧ price = info.data := by
  simp only [getOraclePriceFromRegistry, bind_eq_ok, okOr_eq_ok, ensure_eq_ok, pure_eq_ok,
    exists_const] at h
  rcases h with ⟨info, hinfo, hdata, -, rfl⟩
  exact ⟨hdata, info, hinfo, rfl⟩

lemma getOraclePriceFromRegistry_ne {oracleId : H256}
    (h : getOraclePriceFromRegistry host r outer oracleId maxStalenessSeconds = .ok price) : price ≠ 0 :=
  (getOraclePriceFromRegistry_ok h).1

lemma getOraclePriceFromRegistry_no_panic (oracleId : H256) :
    getOraclePriceFromRegistry host r outer oracleId maxStalenessSeconds ≠ .error .panic := by
  simp [getOraclePriceFromRegistry, bind_eq_error, okOr_eq_error, ensure_eq_error, pure, Except.pure]

/-- What a price of an aggregator is. -/
lemma getAggregatorPriceFromRegistry_eq_ok :
    getAggregatorPriceFromRegistry host r outer token maxStalenessSeconds = .ok price ↔
      ∃ info roundData, r.getAggregatorInfo token = some info ∧
        r.getLatestRoundData host outer token = some roundData ∧ isPositive roundData.answer = true ∧
        info.decimal.toNat < 96 ∧ clipped roundData.answer info.decimal = price ∧ price ≠ 0 ∧
        isStale maxStalenessSeconds (host.now outer) (lowU64 roundData.updatedAt) = false := by
  simp only [getAggregatorPriceFromRegistry, bind_eq_ok, okOr_eq_ok, ensure_eq_ok, pure_eq_ok,
    exists_const]
  constructor
  · rintro ⟨info, hinfo, roundData, hround, hpositive, p, hp, hne, hfresh, rfl⟩
    rcases Nat.lt_or_ge info.decimal.toNat 96 with hlt | hge
    · rw [normalise_of_lt hlt] at hp
      exact ⟨info, roundData, hinfo, hround, hpositive, hlt, Except.ok.inj hp, hne, hfresh⟩
    · rw [normalise_of_le hge] at hp
      cases hp
  · rintro ⟨info, roundData, hinfo, hround, hpositive, hlt, rfl, hne, hfresh⟩
    exact ⟨info, hinfo, roundData, hround, hpositive, _, normalise_of_lt hlt, hne, hfresh, rfl⟩

/-- A price of an aggregator panics for its decimals only. -/
lemma getAggregatorPriceFromRegistry_panic :
    getAggregatorPriceFromRegistry host r outer token maxStalenessSeconds = .error .panic ↔
      ∃ info roundData, r.getAggregatorInfo token = some info ∧
        r.getLatestRoundData host outer token = some roundData ∧ isPositive roundData.answer = true ∧
        96 ≤ info.decimal.toNat := by
  simp only [getAggregatorPriceFromRegistry, bind_eq_error, okOr_eq_error, ensure_eq_error, okOr_eq_ok,
    ensure_eq_ok, reduceCtorEq, and_false, false_or, or_false, exists_const, pure, Except.pure]
  constructor
  · rintro ⟨info, hinfo, roundData, hround, hpositive, hpanic⟩
    refine ⟨info, roundData, hinfo, hround, hpositive, ?_⟩
    by_contra hlt
    rw [normalise_of_lt (by omega)] at hpanic
    cases hpanic
  · rintro ⟨info, roundData, hinfo, hround, hpositive, hge⟩
    exact ⟨info, hinfo, roundData, hround, hpositive, normalise_of_le hge⟩

lemma getTokenPriceViaRegistry_panic :
    getTokenPriceViaRegistry host r outer token maxStalenessSeconds = .error .panic ↔
      r.getAssetOracle token = some 0 ∧
        getAggregatorPriceFromRegistry host r outer token maxStalenessSeconds = .error .panic := by
  simp only [getTokenPriceViaRegistry, bind_eq_error, okOr_eq_error, okOr_eq_ok, reduceCtorEq, and_false,
    false_or]
  constructor
  · rintro ⟨oracleId, horacle, hpanic⟩
    split_ifs at hpanic with hzero
    · exact ⟨hzero ▸ horacle, hpanic⟩
    · exact absurd hpanic (getOraclePriceFromRegistry_no_panic oracleId)
  · rintro ⟨horacle, hpanic⟩
    exact ⟨0, horacle, by rw [if_pos rfl]; exact hpanic⟩

/-- An oracle id of zero stands for the aggregator. -/
lemma getTokenPriceViaRegistry_of_zero (h : r.getAssetOracle token = some 0) :
    getTokenPriceViaRegistry host r outer token maxStalenessSeconds =
      getAggregatorPriceFromRegistry host r outer token maxStalenessSeconds := by
  rw [getTokenPriceViaRegistry, h]
  rfl

/-- An answer that does not fit is clipped to a price. -/
lemma clipped_ne_zero {answer : ℕ} {decimal : UInt8} (hanswer : answer ≠ 0)
    (h : 2 ^ 256 ≤ scaled answer decimal) : clipped answer decimal ≠ 0 := by
  rw [clipped]
  split_ifs
  · exact (saturatingMul_pos (by decide) (Nat.pos_of_ne_zero hanswer) (Nat.pow_pos (by decide))).ne'
  · omega

lemma getTokenPriceViaRegistry_ne
    (h : getTokenPriceViaRegistry host r outer token maxStalenessSeconds = .ok price) : price ≠ 0 := by
  simp only [getTokenPriceViaRegistry, bind_eq_ok, okOr_eq_ok] at h
  rcases h with ⟨oracleId, -, h⟩
  split_ifs at h
  · rcases getAggregatorPriceFromRegistry_eq_ok.mp h with ⟨info, roundData, -, -, -, -, -, hne, -⟩
    exact hne
  · exact getOraclePriceFromRegistry_ne h

lemma mapError_eq_ok {ε ε' α : Type} {x : Except ε α} {f : ε → ε'} {a : α} :
    x.mapError f = .ok a ↔ x = .ok a := by
  cases x <;> simp [Except.mapError]

lemma mapError_eq_error {ε ε' α : Type} {x : Except ε α} {f : ε → ε'} {e : ε'} :
    x.mapError f = .error e ↔ ∃ e', x = .error e' ∧ f e' = e := by
  cases x <;> simp [Except.mapError]

namespace Chain

lemma getBfcUsdPrice_ne (h : s.getBfcUsdPrice host = .ok nativePrice) : nativePrice ≠ 0 := by
  simp only [getBfcUsdPrice, bind_eq_ok, okOr_eq_ok, mapError_eq_ok] at h
  rcases h with ⟨oracleId, -, h⟩
  exact getOraclePriceFromRegistry_ne h

lemma getBfcUsdPrice_no_panic : s.getBfcUsdPrice host ≠ .error .panic := by
  intro h
  simp only [getBfcUsdPrice, bind_eq_error, okOr_eq_error, mapError_eq_error, reduceCtorEq, and_false,
    false_or] at h
  rcases h with ⟨oracleId, -, e, he, hmap⟩
  cases e with
  | panic => exact getOraclePriceFromRegistry_no_panic oracleId he
  | error e => cases hmap

lemma tokenUsdPrice_ne (h : s.tokenUsdPrice host token config = .ok tokenPrice) : tokenPrice ≠ 0 :=
  getTokenPriceViaRegistry_ne (mapError_eq_ok.mp h)

lemma priceError_panic {e : Halt OracleError} : priceError e = .panic ↔ e = .panic := by
  rcases e with _ | _ | _ | _ | _ <;> simp [priceError]

lemma tokenUsdPrice_panic :
    s.tokenUsdPrice host token config = .error .panic ↔
      getTokenPriceViaRegistry host s.registry s.outer token config.maxStalenessSeconds =
        .error .panic := by
  simp only [tokenUsdPrice, mapError_eq_error, priceError_panic, exists_eq_right]

/-! ## The path to an aggregator -/

/-- **A fee that is to be taken in a token**: it is not zero, and the payer has chosen the token. -/
structure Converts (host : Host σ) (s : Chain σ) (who : H160) (fee : ℕ) (token : H160) : Prop where
  fee : fee ≠ 0
  enabled : s.isErc20FeeEnabled host = true
  preferred : s.fees.userFeeToken.get who = some token

/-- **The fee depends on an aggregator**: the price of the token that it is to be taken in is the positive
answer of one. -/
structure ReachesAggregator (host : Host σ) (s : Chain σ) (who : H160) (fee : ℕ) (token : H160)
    (config : FeeTokenConfig) (info : AggregatorInfo) (roundData : AggregatorRoundData) : Prop
    extends Converts host s who fee token where
  accepted : s.fees.acceptedFeeTokens.get token = some config
  active : config.enabled = true
  native : ∃ nativePrice, s.getBfcUsdPrice host = .ok nativePrice
  oracle : s.registry.getAssetOracle token = some 0
  aggregator : s.registry.getAggregatorInfo token = some info
  round : s.registry.getLatestRoundData host s.outer token = some roundData
  positive : isPositive roundData.answer = true

/-- **The fee falls back to the native currency**: the balance of the account is charged for it, and the
transaction is refused if it cannot be. -/
structure FallsBack (host : Host σ) (s : Chain σ) (who : H160) (fee : ℕ) : Prop where
  paid : ∀ outer imbalance, host.withdraw s.outer who (saturated fee) = some (outer, imbalance) →
    s.withdrawFee host who fee = .ok ({ s.countTransaction with outer }, .native (some imbalance))
  refused : host.withdraw s.outer who (saturated fee) = none →
    s.withdrawFee host who fee = .error (.error .balanceLow)

/-- **Prices are safe** for a fee.  Nothing panics: a conversion ends with an amount at two prices that are
not zero, or with an error, and then the fee falls back to the native currency.  A price of the oracle
manager is what it says, and that of an aggregator its answer with 18 decimals, rounded down. -/
structure PricesSafe (host : Host σ) (s : Chain σ) (who : H160) (fee : ℕ) : Prop where
  no_panic : s.withdrawFee host who fee ≠ .error .panic
  converted : ∀ token, Converts host s who fee token → ∀ amount tokenPrice nativePrice,
    s.convertNativeToTokenWithPrices host fee token = .ok (amount, tokenPrice, nativePrice) →
    tokenPrice ≠ 0 ∧ nativePrice ≠ 0 ∧ ∃ config, s.fees.acceptedFeeTokens.get token = some config ∧
      tokenAmount fee nativePrice tokenPrice config.decimals = some amount
  fallback : ∀ token, Converts host s who fee token → ∀ e,
    s.convertNativeToTokenWithPrices host fee token = .error e → FallsBack host s who fee
  manager : ∀ oracleId maxStalenessSeconds price,
    getOraclePriceFromRegistry host s.registry s.outer oracleId maxStalenessSeconds = .ok price →
    price ≠ 0 ∧ ∃ info, s.registry.getLatestOracleInfo host s.outer oracleId = some info ∧
      price = info.data
  aggregator : ∀ token config info roundData,
    ReachesAggregator host s who fee token config info roundData →
    ∀ price, getTokenPriceViaRegistry host s.registry s.outer token config.maxStalenessSeconds =
        .ok price →
      price = roundData.answer * 10 ^ 18 / 10 ^ info.decimal.toNat ∧ price ≠ 0

lemma withdrawNativeFee_no_panic {t : Chain σ} : t.withdrawNativeFee host who fee ≠ .error .panic := by
  simp [withdrawNativeFee, bind_eq_error, okOr_eq_error, pure, Except.pure]

lemma takeTokens_no_panic {t : Chain σ} {w : Withdrawal} :
    t.takeTokens host who fee w ≠ .error .panic := by
  rw [takeTokens]
  split
  split_ifs
  · exact fun h => by cases h
  · exact withdrawNativeFee_no_panic

lemma convert_panic :
    s.convertNativeToTokenWithPrices host fee token = .error .panic ↔
      ∃ config, s.fees.acceptedFeeTokens.get token = some config ∧ config.enabled = true ∧
        (∃ nativePrice, s.getBfcUsdPrice host = .ok nativePrice) ∧
        s.tokenUsdPrice host token config = .error .panic := by
  have hbfc : s.getBfcUsdPrice host ≠ .error .panic := getBfcUsdPrice_no_panic
  simp only [convertNativeToTokenWithPrices, bind_eq_error, okOr_eq_error, ensure_eq_error, okOr_eq_ok,
    ensure_eq_ok, reduceCtorEq, and_false, false_or, or_false, exists_const, pure, Except.pure, hbfc]
  constructor
  · rintro ⟨config, hconfig, henabled, np, hnp, hpanic⟩
    exact ⟨config, hconfig, henabled, ⟨np, hnp⟩, hpanic⟩
  · rintro ⟨config, hconfig, henabled, ⟨np, hnp⟩, hpanic⟩
    exact ⟨config, hconfig, henabled, np, hnp, hpanic⟩

/-- A panic of the conversion is one of the withdrawal. -/
lemma Converts.panics (h : Converts host s who fee token)
    (hpanic : s.convertNativeToTokenWithPrices host fee token = .error .panic) :
    s.withdrawFee host who fee = .error .panic := by
  obtain ⟨config, haccepted, hactive, -, -⟩ := convert_panic.mp hpanic
  have hcount : s.countTransaction.isErc20FeeEnabled host = s.isErc20FeeEnabled host := rfl
  have hprefer : s.countTransaction.fees.userFeeToken = s.fees.userFeeToken := rfl
  have haccept : s.countTransaction.fees.acceptedFeeTokens = s.fees.acceptedFeeTokens := rfl
  have hconvert : s.countTransaction.convertNativeToTokenWithPrices host fee token =
      .error .panic := hpanic
  simp only [withdrawFee, hcount, hprefer, h.fee, h.enabled, h.preferred, withdrawErc20Fee, haccept,
    haccepted, hactive, hconvert, if_false, reduceCtorEq]

/-- **`withdraw_fee` panics** for the decimals of an aggregator only. -/
lemma withdrawFee_panic :
    s.withdrawFee host who fee = .error .panic ↔
      ∃ token config info roundData, ReachesAggregator host s who fee token config info roundData ∧
        96 ≤ info.decimal.toNat := by
  have hcount : s.countTransaction.isErc20FeeEnabled host = s.isErc20FeeEnabled host := rfl
  have hprefer : s.countTransaction.fees.userFeeToken = s.fees.userFeeToken := rfl
  have haccept : s.countTransaction.fees.acceptedFeeTokens = s.fees.acceptedFeeTokens := rfl
  have hconvert : ∀ token, s.countTransaction.convertNativeToTokenWithPrices host fee token =
      s.convertNativeToTokenWithPrices host fee token := fun _ => rfl
  constructor
  · intro h
    simp only [withdrawFee, hcount, hprefer] at h
    split_ifs at h with hfee henabled
    · exact absurd h withdrawNativeFee_no_panic
    · cases htoken : s.fees.userFeeToken.get who with
      | none =>
          rw [htoken] at h
          exact absurd h withdrawNativeFee_no_panic
      | some token =>
          rw [htoken] at h
          simp only [withdrawErc20Fee, haccept, hconvert] at h
          split at h
          · exact absurd h withdrawNativeFee_no_panic
          · split_ifs at h
            · exact absurd h withdrawNativeFee_no_panic
            · split at h
              · exact absurd h takeTokens_no_panic
              · exact absurd h withdrawNativeFee_no_panic
              · rename_i hpanic
                obtain ⟨config, hconfig, hactive, hnative, hprice⟩ := convert_panic.mp hpanic
                obtain ⟨horacle, haggregator⟩ :=
                  getTokenPriceViaRegistry_panic.mp (tokenUsdPrice_panic.mp hprice)
                obtain ⟨info, roundData, hinfo, hround, hpositive, hge⟩ :=
                  getAggregatorPriceFromRegistry_panic.mp haggregator
                exact ⟨token, config, info, roundData, ⟨⟨hfee, Bool.of_not_eq_false henabled, htoken⟩,
                  hconfig, hactive, hnative, horacle, hinfo, hround, hpositive⟩, hge⟩
  · rintro ⟨token, config, info, roundData, hreach, hge⟩
    have haggregator : getAggregatorPriceFromRegistry host s.registry s.outer token
        config.maxStalenessSeconds = .error .panic :=
      getAggregatorPriceFromRegistry_panic.mpr
        ⟨info, roundData, hreach.aggregator, hreach.round, hreach.positive, hge⟩
    exact hreach.toConverts.panics (convert_panic.mpr ⟨config, hreach.accepted, hreach.active,
      hreach.native,
      tokenUsdPrice_panic.mpr (getTokenPriceViaRegistry_panic.mpr ⟨hreach.oracle, haggregator⟩)⟩)

/-! ## The way back -/

lemma withdrawNativeFee_some {t : Chain σ} {imbalance : ℕ}
    (h : host.withdraw t.outer who (saturated fee) = some (outer, imbalance)) :
    t.withdrawNativeFee host who fee = .ok ({ t with outer }, .native (some imbalance)) := by
  rw [withdrawNativeFee, h]
  rfl

lemma withdrawNativeFee_none {t : Chain σ} (h : host.withdraw t.outer who (saturated fee) = none) :
    t.withdrawNativeFee host who fee = .error (.error .balanceLow) := by
  rw [withdrawNativeFee, h]
  rfl

/-- A fee that is withdrawn in the native currency first falls back to it. -/
lemma FallsBack.of_native
    (h : s.withdrawFee host who fee = s.countTransaction.withdrawNativeFee host who fee) :
    FallsBack host s who fee where
  paid _ _ hwithdraw := h.trans (withdrawNativeFee_some hwithdraw)
  refused hwithdraw := h.trans (withdrawNativeFee_none hwithdraw)

/-- **An error of the conversion** makes the fee fall back, unless it is a panic. -/
lemma Converts.fallsBack {e : Error} (h : Converts host s who fee token)
    (herror : s.convertNativeToTokenWithPrices host fee token = .error (.error e)) :
    FallsBack host s who fee := by
  have hcount : s.countTransaction.isErc20FeeEnabled host = s.isErc20FeeEnabled host := rfl
  have hprefer : s.countTransaction.fees.userFeeToken = s.fees.userFeeToken := rfl
  have hconvert : s.countTransaction.convertNativeToTokenWithPrices host fee token =
      .error (.error e) := herror
  apply FallsBack.of_native
  simp only [withdrawFee, hcount, hprefer, h.fee, h.enabled, h.preferred, if_false, reduceCtorEq,
    withdrawErc20Fee, hconvert, fallbackToNative]
  cases s.countTransaction.fees.acceptedFeeTokens.get token with
  | none => rfl
  | some config => exact ite_self _

/-! ## Amounts -/

/-- The amount of tokens is the worth of the fee, rounded down. -/
lemma tokenAmount_eq {decimals : UInt8} (hdecimals : decimals.toNat ≤ 18) (hprice : tokenPrice ≠ 0) :
    tokenAmount fee nativePrice tokenPrice decimals =
      if fee * nativePrice * 10 ^ decimals.toNat < 2 ^ 256 then
        some (fee * nativePrice * 10 ^ decimals.toNat / (tokenPrice * 10 ^ 18))
      else none := by
  have hpow : 10 ^ decimals.toNat % 2 ^ 128 = 10 ^ decimals.toNat := by
    have hle : 10 ^ decimals.toNat ≤ 10 ^ 18 := Nat.pow_le_pow_right (by decide) hdecimals
    have hsmall : 10 ^ 18 < 2 ^ 128 := by norm_num
    exact Nat.mod_eq_of_lt (by omega)
  have hone : 1 ≤ 10 ^ decimals.toNat := Nat.one_le_pow _ _ (by decide)
  rw [tokenAmount, hpow]
  split_ifs with hfits
  · have hvalue : fee * nativePrice < 2 ^ 256 :=
      (Nat.le_mul_of_pos_right _ hone).trans_lt hfits
    simp only [checkedMul, if_pos hvalue, if_pos hfits, checkedDiv, if_neg hprice, Option.bind_eq_bind,
      Option.bind_some, Nat.div_div_eq_div_mul]
    rfl
  · by_cases hvalue : fee * nativePrice < 2 ^ 256
    · simp only [checkedMul, if_pos hvalue, if_neg hfits, Option.bind_eq_bind, Option.bind_some,
        Option.bind_none]
    · simp only [checkedMul, if_neg hvalue, Option.bind_eq_bind, Option.bind_none]

/-- **The prices of a fee**: it is to be taken in a token that is accepted, and both prices are there. -/
structure Quoted (host : Host σ) (s : Chain σ) (who token : H160) (config : FeeTokenConfig)
    (nativePrice tokenPrice : ℕ) : Prop where
  enabled : s.isErc20FeeEnabled host = true
  preferred : s.fees.userFeeToken.get who = some token
  accepted : s.fees.acceptedFeeTokens.get token = some config
  active : config.enabled = true
  native : s.getBfcUsdPrice host = .ok nativePrice
  price : s.tokenUsdPrice host token config = .ok tokenPrice

lemma TokenCharge.quoted {w : Withdrawal} (h : TokenCharge host s who fee s₁ w) :
    ∃ config, Quoted host s who w.token config w.nativePrice w.tokenPrice ∧
      tokenAmount fee w.nativePrice w.tokenPrice config.decimals = some w.amount := by
  rcases convert_eq_ok.mp h.converted with ⟨config, hconfig, hactive, hnative, hprice, hamount⟩
  exact ⟨config, ⟨h.enabled, h.preferred, hconfig, hactive, hnative, hprice⟩, hamount⟩

/-- A fee has one pair of prices. -/
lemma Quoted.unique {token' : H160} {config' : FeeTokenConfig} {nativePrice' tokenPrice' : ℕ}
    (h : Quoted host s who token config nativePrice tokenPrice)
    (h' : Quoted host s who token' config' nativePrice' tokenPrice') :
    token' = token ∧ config' = config ∧ nativePrice' = nativePrice ∧ tokenPrice' = tokenPrice := by
  have htoken : token' = token := Option.some.inj (h'.preferred.symm.trans h.preferred)
  subst htoken
  have hconfig : config' = config := Option.some.inj (h'.accepted.symm.trans h.accepted)
  subst hconfig
  exact ⟨rfl, rfl, Except.ok.inj (h'.native.symm.trans h.native),
    Except.ok.inj (h'.price.symm.trans h.price)⟩

/-- A fee that has prices and converts to nothing is taken in tokens. -/
lemma Quoted.withdrawFee_zero (h : Quoted host s who token config nativePrice tokenPrice) (hfee : fee ≠ 0)
    (hamount : tokenAmount fee nativePrice tokenPrice config.decimals = some 0) :
    ∃ s₁, s.withdrawFee host who fee =
      .ok (s₁, .erc20Withdrawn ⟨token, 0, fee, s.fees.currentTxIndex, tokenPrice, nativePrice⟩) := by
  have hcount : s.countTransaction.isErc20FeeEnabled host = s.isErc20FeeEnabled host := rfl
  have hprefer : s.countTransaction.fees.userFeeToken = s.fees.userFeeToken := rfl
  have haccept : s.countTransaction.fees.acceptedFeeTokens = s.fees.acceptedFeeTokens := rfl
  have hconvert : s.countTransaction.convertNativeToTokenWithPrices host fee token =
      .ok (0, tokenPrice, nativePrice) :=
    convert_eq_ok.mpr ⟨config, h.accepted, h.active, h.native, h.price, hamount⟩
  simp only [withdrawFee, hcount, hprefer, hfee, h.enabled, h.preferred, withdrawErc20Fee, haccept,
    h.accepted, h.active, hconvert, if_false, reduceCtorEq, takeTokens, Host.executeFeeTransfer,
    Host.transferFromUser, Host.transfer, if_true]
  exact ⟨_, rfl⟩

/-- **The fee is covered**: tokens that are worth it up to one unit have left the user's account, or it was
taken in the native currency. -/
def Covered (host : Host σ) (log : σ → List Transfer) (s : Chain σ) (who : H160) (fee : ℕ) (s₁ : Chain σ)
    (info : LiquidityInfo) : Prop :=
  (∃ w config, info = .erc20Withdrawn w ∧ Quoted host s who w.token config w.nativePrice w.tokenPrice ∧
    w.amount ≠ 0 ∧
    fee * w.nativePrice * 10 ^ config.decimals.toNat <
      w.amount * w.tokenPrice * 10 ^ 18 + w.tokenPrice * 10 ^ 18 ∧
    log s₁.outer = log s.outer ++ [⟨w.token, who, host.feeCollectorAddress, w.amount⟩]) ∨
  ∃ imbalance, info = .native (some imbalance) ∧ NativeCharge host s who fee s₁ imbalance

/-- The worth of a charge, up to one unit. -/
lemma amount_worth {decimals : UInt8} {amount : ℕ} (hdecimals : decimals.toNat ≤ 18)
    (hprice : tokenPrice ≠ 0)
    (h : tokenAmount fee nativePrice tokenPrice decimals = some amount) :
    fee * nativePrice * 10 ^ decimals.toNat < amount * tokenPrice * 10 ^ 18 + tokenPrice * 10 ^ 18 ∧
      fee * nativePrice * 10 ^ decimals.toNat < 2 ^ 256 ∧
      (amount ≠ 0 ↔ tokenPrice * 10 ^ 18 ≤ fee * nativePrice * 10 ^ decimals.toNat) := by
  have hunit : 0 < tokenPrice * 10 ^ 18 := Nat.mul_pos (Nat.pos_of_ne_zero hprice) (by decide)
  rw [tokenAmount_eq hdecimals hprice] at h
  split_ifs at h with hfits
  have hfloor := Nat.lt_div_mul_add hunit (a := fee * nativePrice * 10 ^ decimals.toNat)
  rw [Option.some.inj h, ← Nat.mul_assoc] at hfloor
  refine ⟨hfloor, hfits, ?_⟩
  rw [← Option.some.inj h, ← Nat.pos_iff_ne_zero]
  exact Nat.div_pos_iff.trans (and_iff_right hunit)

end Chain

/-! ## Results -/

/-- **When prices are safe.**  The prices of a fee are safe exactly when an aggregator that it depends on
has fewer than 96 decimals, and its answer with 18 decimals fits into a word, unless it is stale. -/
theorem prices_safe_iff (host : Host σ) (s : Chain σ) (who : H160) (fee : ℕ) :
    Chain.PricesSafe host s who fee ↔
      ∀ token config info roundData,
        Chain.ReachesAggregator host s who fee token config info roundData →
        info.decimal.toNat < 96 ∧
          (isStale config.maxStalenessSeconds (host.now s.outer) (lowU64 roundData.updatedAt) = false →
            roundData.answer * 10 ^ 18 / 10 ^ info.decimal.toNat < 2 ^ 256) := by
  constructor
  · intro hsafe token config info roundData hreach
    have hlt : info.decimal.toNat < 96 := by
      by_contra hge
      exact hsafe.no_panic (Chain.withdrawFee_panic.mpr
        ⟨token, config, info, roundData, hreach, Nat.le_of_not_lt hge⟩)
    refine ⟨hlt, fun hfresh => ?_⟩
    by_contra hover
    have hne : roundData.answer ≠ 0 := (of_decide_eq_true hreach.positive).1
    have hprice : getTokenPriceViaRegistry host s.registry s.outer token config.maxStalenessSeconds =
        .ok (clipped roundData.answer info.decimal) := by
      rw [getTokenPriceViaRegistry_of_zero hreach.oracle]
      exact getAggregatorPriceFromRegistry_eq_ok.mpr
        ⟨info, roundData, hreach.aggregator, hreach.round, hreach.positive, hlt, rfl,
          clipped_ne_zero hne (Nat.le_of_not_lt hover), hfresh⟩
    have heq := (hsafe.aggregator token config info roundData hreach _ hprice).1
    exact hover ((clipped_eq_scaled (answer_lt hreach.round)).mp heq)
  · intro h
    have hpanic : s.withdrawFee host who fee ≠ .error .panic := by
      intro hpanic
      obtain ⟨token, config, info, roundData, hreach, hge⟩ := Chain.withdrawFee_panic.mp hpanic
      have hlt := (h token config info roundData hreach).1
      omega
    refine ⟨hpanic, fun token hfee amount tokenPrice nativePrice hconverted => ?_,
      fun token hfee e herror => ?_, fun oracleId maxStalenessSeconds price => ?_,
      fun token config info roundData hreach price hprice => ?_⟩
    · obtain ⟨config, hconfig, -, hnative, hprice, hamount⟩ := Chain.convert_eq_ok.mp hconverted
      exact ⟨Chain.tokenUsdPrice_ne hprice, Chain.getBfcUsdPrice_ne hnative, config, hconfig, hamount⟩
    · cases e with
      | panic => exact absurd (hfee.panics herror) hpanic
      | error e => exact hfee.fallsBack herror
    · exact getOraclePriceFromRegistry_ok
    · rw [getTokenPriceViaRegistry_of_zero hreach.oracle] at hprice
      obtain ⟨info', roundData', hinfo, hround, -, -, rfl, hne, hfresh⟩ :=
        getAggregatorPriceFromRegistry_eq_ok.mp hprice
      obtain rfl : info' = info := Option.some.inj (hinfo.symm.trans hreach.aggregator)
      obtain rfl : roundData' = roundData := Option.some.inj (hround.symm.trans hreach.round)
      have hfits := (h token config info' roundData' hreach).2 hfresh
      exact ⟨(clipped_eq_scaled (answer_lt hreach.round)).mpr hfits, hne⟩

/-- User 5 pays in token 7, whose price comes from an aggregator. -/
def aggregatorSteps (decimal : UInt8) : List (Chain.Step Till) :=
  [.setNativeCurrencyOracle .root 1 1, .setAssetOracle .root 7 0, .setOracleManagerContract .root 6,
    .setAssetAggregator .root 7 11 decimal, .addFeeToken .root 7 ⟨true, 6, 0, 0⟩,
    .setUserFeeToken 5 (some 7)]

def aggregatorChain (decimal : UInt8) : Chain Till where
  registry :=
    ⟨(StorageMap.empty.insert (.nativeCurrency 1) 1).insert (.asset 7) 0,
      StorageMap.empty.insert 7 ⟨11, decimal⟩, some 6⟩
  fees :=
    { FeePallet.genesis with
      acceptedFeeTokens := StorageMap.empty.insert 7 ⟨true, 6, 0, 0⟩
      userFeeToken := StorageMap.empty.insert 5 7 }
  outer := ⟨[], false⟩

/-- **An aggregator with 96 decimals** takes the transactions of everyone who pays in its token down. -/
theorem prices_unsafe :
    ∃ s, Reachable Chain.Genesis (Chain.step (till parQuotes)) anyStep s ∧
      s.withdrawFee (till parQuotes) 5 (10 ^ 18) = .error .panic ∧
      ¬ Chain.PricesSafe (till parQuotes) s 5 (10 ^ 18) := by
  have hgenesis : Chain.Genesis (⟨.genesis, .genesis, ⟨[], false⟩⟩ : Chain Till) := ⟨rfl, rfl⟩
  have hrun : runSteps (Chain.step (till parQuotes)) ⟨.genesis, .genesis, ⟨[], false⟩⟩
      (aggregatorSteps 96) = some (aggregatorChain 96) := rfl
  have hreach : Chain.ReachesAggregator (till parQuotes) (aggregatorChain 96) 5 (10 ^ 18) 7
      ⟨true, 6, 0, 0⟩ ⟨11, 96⟩ ⟨0, 1, 0, 0, 0⟩ :=
    { fee := by decide
      enabled := by decide
      preferred := rfl
      accepted := rfl
      active := rfl
      native := ⟨10 ^ 18, by decide +kernel⟩
      oracle := rfl
      aggregator := rfl
      round := by decide +kernel
      positive := by decide +kernel }
  have hpanic : (aggregatorChain 96).withdrawFee (till parQuotes) 5 (10 ^ 18) = .error .panic :=
    Chain.withdrawFee_panic.mpr ⟨7, _, _, _, hreach, by decide⟩
  exact ⟨aggregatorChain 96, (Reachable.init hgenesis).runSteps hrun, hpanic,
    fun hsafe => hsafe.no_panic hpanic⟩

/-- **When fees are covered.**  In every run, a fee is covered exactly when it is worth at least one unit of
the token, or so much that the conversion overflows. -/
theorem charges_covered_iff (hexact : host.Exact log)
    (hs : Reachable Chain.Genesis (Chain.step host) anyStep s) (hfee : fee ≠ 0) {info : LiquidityInfo}
    (hw : s.withdrawFee host who fee = .ok (s₁, info)) :
    Chain.Covered host log s who fee s₁ info ↔
      ∀ token config nativePrice tokenPrice,
        Chain.Quoted host s who token config nativePrice tokenPrice →
        2 ^ 256 ≤ fee * nativePrice * 10 ^ config.decimals.toNat ∨
          tokenPrice * 10 ^ 18 ≤ fee * nativePrice * 10 ^ config.decimals.toNat := by
  have hsound := Chain.sound_of_reachable hs
  constructor
  · intro hcovered token config nativePrice tokenPrice hquoted
    have hdecimals := hsound.decimals token config hquoted.accepted
    have hprice := Chain.tokenUsdPrice_ne hquoted.price
    by_contra hnot
    push Not at hnot
    have hunit : 0 < tokenPrice * 10 ^ 18 := Nat.mul_pos (Nat.pos_of_ne_zero hprice) (by decide)
    have hzero : Chain.tokenAmount fee nativePrice tokenPrice config.decimals = some 0 := by
      rw [Chain.tokenAmount_eq hdecimals hprice, if_pos hnot.1, Nat.div_eq_of_lt hnot.2]
    obtain ⟨s₂, hfree⟩ := hquoted.withdrawFee_zero hfee hzero
    rw [hfree] at hw
    cases hw
    rcases hcovered with ⟨w, -, hinfo, -, hamount, -⟩ | ⟨imbalance, hinfo, -⟩
    · cases hinfo
      exact hamount rfl
    · cases hinfo
  · intro h
    rcases Chain.withdrawFee_cases hw with ⟨hzero, -⟩ | ⟨-, w, rfl, hcharge⟩ | ⟨-, imbalance, rfl, hcharge⟩
    · exact absurd hzero hfee
    · obtain ⟨config, hquoted, hamount⟩ := hcharge.quoted
      have hdecimals := hsound.decimals w.token config hquoted.accepted
      have hprice := Chain.tokenUsdPrice_ne hquoted.price
      obtain ⟨hworth, hfits, hne⟩ := Chain.amount_worth hdecimals hprice hamount
      have hamount' : w.amount ≠ 0 := by
        rcases h _ _ _ _ hquoted with hover | hunit
        · omega
        · exact hne.mpr hunit
      have hlog := hcharge.received hexact
      rw [moved, if_neg hamount'] at hlog
      exact .inl ⟨w, config, rfl, hquoted, hamount', hworth, hlog⟩
    · exact .inr ⟨imbalance, rfl, hcharge⟩

/-- **A free transaction**: the native token is worth five cents, and the fee less than one unit of a token
with six decimals. -/
theorem charges_uncovered :
    ∃ s₁ info, Reachable Chain.Genesis (Chain.step (till ⟨5 * 10 ^ 16, 10 ^ 18, 1⟩)) anyStep tillChain ∧
      tillChain.withdrawFee (till ⟨5 * 10 ^ 16, 10 ^ 18, 1⟩) 5 (10 ^ 13) = .ok (s₁, info) ∧
      info = .erc20Withdrawn ⟨7, 0, 10 ^ 13, 0, 10 ^ 18, 5 * 10 ^ 16⟩ ∧
      ¬ Chain.Covered (till ⟨5 * 10 ^ 16, 10 ^ 18, 1⟩) Till.log tillChain 5 (10 ^ 13) s₁ info := by
  have hquoted : Chain.Quoted (till ⟨5 * 10 ^ 16, 10 ^ 18, 1⟩) tillChain 5 7 ⟨true, 6, 0, 0⟩ (5 * 10 ^ 16)
      (10 ^ 18) :=
    { enabled := by decide
      preferred := rfl
      accepted := rfl
      active := rfl
      native := by decide +kernel
      price := by decide +kernel }
  have hfee : 10 ^ 13 ≠ 0 := by decide
  obtain ⟨s₁, hw⟩ := hquoted.withdrawFee_zero hfee (by decide +kernel)
  refine ⟨s₁, _, tillChain_reachable _, hw, rfl, ?_⟩
  rintro (⟨w, config, hinfo, -, hamount, -⟩ | ⟨imbalance, hinfo, -⟩)
  · cases hinfo
    exact hamount rfl
  · cases hinfo

/-- With a dollar for a dollar, a fee of one native token is covered. -/
theorem charges_covered_iff_till :
    ∃ s₁, tillChain.withdrawFee (till parQuotes) 5 (10 ^ 18) = .ok (s₁, .erc20Withdrawn tillWithdrawal) ∧
      Chain.Covered (till parQuotes) Till.log tillChain 5 (10 ^ 18) s₁
        (.erc20Withdrawn tillWithdrawal) := by
  have hquoted : Chain.Quoted (till parQuotes) tillChain 5 7 ⟨true, 6, 0, 0⟩ (10 ^ 18) (10 ^ 18) :=
    { enabled := by decide
      preferred := rfl
      accepted := rfl
      active := rfl
      native := by decide +kernel
      price := by decide +kernel }
  obtain ⟨s₁, hw⟩ := tillCharge_exists
  refine ⟨s₁, hw, (charges_covered_iff (till_exact parQuotes) (tillChain_reachable parQuotes) (by decide)
    hw).mpr fun token config nativePrice tokenPrice h => ?_⟩
  obtain ⟨rfl, rfl, rfl, rfl⟩ := hquoted.unique h
  exact .inr (by decide +kernel)

end BifrostNode.Fees
