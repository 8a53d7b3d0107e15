import BifrostNode.Fees.Oracle

/-!
# Fees in tokens

`bifrost-evm-tx-payment` lets users pay for EVM transactions in tokens that governance accepts.

**A transaction.**  Before it runs, `withdraw_fee` takes the largest fee it may cost, in the user's token at
the prices of the oracles, or in the native currency where that fails.  After it has run,
`correct_and_deposit_fee` returns what it did not need, and `pay_priority_fee` gives the tip to the author of
the block.

**Receipts.**  `PendingFeePayments` says what each transaction of the block paid, by user and by the index of
the transaction.  Both are reset when the next block starts; a block has fewer entries than the limit of
`clear`.  The events are left out, and with them the reasons for a fallback.
-/

namespace BifrostNode.Fees

open Cccp Staking Transition Words

/-! ## Records -/

structure FeeTokenConfig where
  enabled : Bool
  decimals : UInt8
  maxStalenessSeconds : ℕ
  minBalance : ℕ
  deriving DecidableEq

structure FeePaymentInfo where
  token : H160
  amount : ℕ
  nativeEquivalent : ℕ
  tokenPrice : ℕ
  nativePrice : ℕ
  deriving DecidableEq

/-- The fields of `LiquidityInfo::ERC20Withdrawn`. -/
structure Withdrawal where
  token : H160
  amount : ℕ
  nativeEquivalent : ℕ
  txIndex : ℕ
  tokenPrice : ℕ
  nativePrice : ℕ
  deriving DecidableEq

/-- `LiquidityInfo`. -/
inductive LiquidityInfo
  | none
  | native (imbalance : Option ℕ)
  | erc20Withdrawn (withdrawal : Withdrawal)
  | erc20Tip (token : H160) (tipAmount : ℕ)
  deriving DecidableEq

/-- The errors of the pallet, and `BalanceLow` of `pallet_evm`. -/
inductive Error
  | tokenNotAccepted
  | tokenAlreadyAccepted
  | oraclePriceFailed
  | priceOverflow
  | erc20TransferFailed
  | invalidTokenConfig
  | tokenDisabled
  | nativeOracleNotSet
  | oraclePriceStale
  | oracleNotRegistered
  | badOrigin
  | balanceLow
  deriving DecidableEq

/-- The storage of the pallet. -/
structure FeePallet where
  acceptedFeeTokens : StorageMap H160 FeeTokenConfig
  userFeeToken : StorageMap H160 H160
  currentTxIndex : ℕ
  pendingFeePayments : StorageMap (H160 × ℕ) FeePaymentInfo

/-- The pallet, the registry and what is outside. -/
structure Chain (σ : Type) where
  registry : OracleRegistry
  fees : FeePallet
  outer : σ

variable {σ : Type}

/-! ## Transfers -/

/-- `ERC20_TRANSFER_GAS_LIMIT`. -/
def erc20TransferGasLimit : ℕ := 100000

/-- `transfer(address,uint256)` of a token. -/
def encodeTransfer (target : H160) (amount : ℕ) : Bytes :=
  [0xa9, 0x05, 0x9c, 0xbb] ++ toBigEndian 32 target.val ++ toBigEndian 32 amount

/-- Tokens return true, or nothing at all. -/
def checkBoolReturn (data : Bytes) : Bool :=
  data = [] ∨ (32 ≤ data.length ∧ data.take 32 = List.replicate 31 0 ++ [1])

/-- The call is reported as a success. -/
def reported (result : Option CallInfo) : Bool :=
  result.any fun info => info.exitReason = .succeed ∧ checkBoolReturn info.value

namespace Host

variable (host : Host σ) (outer : σ)

/-- The call of a token's `transfer`. -/
def callTransfer (source token target : H160) (amount : ℕ) : σ × Option CallInfo :=
  host.callAsInternalCall outer source token (encodeTransfer target amount) erc20TransferGasLimit

/-- `transfer_from_user` and `transfer_to_user`.  Nothing is called for an amount of zero. -/
def transfer (source token target : H160) (amount : ℕ) : σ × Bool :=
  if amount = 0 then (outer, true)
  else
    let called := host.callTransfer outer source token target amount
    (called.1, reported called.2)

def transferFromUser (source token target : H160) (amount : ℕ) : σ × Bool :=
  host.transfer outer source token target amount

def transferToUser (source token target : H160) (amount : ℕ) : σ × Bool :=
  host.transfer outer source token target amount

/-- `execute_fee_transfer`. -/
def executeFeeTransfer (source token : H160) (amount : ℕ) : σ × Bool :=
  host.transferFromUser outer source token host.feeCollectorAddress amount

/-- `refund_token`. -/
def refundToken (target token : H160) (amount : ℕ) : σ × Bool :=
  if amount = 0 then (outer, true)
  else host.transferToUser outer host.feeCollectorAddress token target amount

end Host

/-! ## Calls -/

namespace FeePallet

/-- Nothing is stored at genesis. -/
def genesis : FeePallet := ⟨∅, ∅, 0, ∅⟩

def addFeeToken (s : FeePallet) (origin : Origin H160) (token : H160) (config : FeeTokenConfig) :
    Except Error FeePallet := do
  ensure (origin = .root) .badOrigin
  ensure (s.acceptedFeeTokens.contains token = false) .tokenAlreadyAccepted
  ensure (config.decimals.toNat ≤ 18) .invalidTokenConfig
  return { s with acceptedFeeTokens := s.acceptedFeeTokens.insert token config }

def removeFeeToken (s : FeePallet) (origin : Origin H160) (token : H160) : Except Error FeePallet := do
  ensure (origin = .root) .badOrigin
  ensure (s.acceptedFeeTokens.contains token) .tokenNotAccepted
  return { s with acceptedFeeTokens := s.acceptedFeeTokens.remove token }

def updateFeeToken (s : FeePallet) (origin : Origin H160) (token : H160) (config : FeeTokenConfig) :
    Except Error FeePallet := do
  ensure (origin = .root) .badOrigin
  ensure (s.acceptedFeeTokens.contains token) .tokenNotAccepted
  ensure (config.decimals.toNat ≤ 18) .invalidTokenConfig
  return { s with acceptedFeeTokens := s.acceptedFeeTokens.insert token config }

/-- `set_user_fee_token`.  Accounts are addresses. -/
def setUserFeeToken (s : FeePallet) (who : H160) : Option H160 → Except Error FeePallet
  | some token => do
      let config ← okOr (s.acceptedFeeTokens.get token) .tokenNotAccepted
      ensure config.enabled .tokenDisabled
      return { s with userFeeToken := s.userFeeToken.insert who token }
  | none => return { s with userFeeToken := s.userFeeToken.remove who }

/-- `on_initialize`. -/
def onInitialize (s : FeePallet) : FeePallet := { s with pendingFeePayments := ∅, currentTxIndex := 0 }

/-- What a transaction paid is noted. -/
def putPayment (s : FeePallet) (who : H160) (txIndex : ℕ) (info : FeePaymentInfo) : FeePallet :=
  { s with pendingFeePayments := s.pendingFeePayments.insert (who, txIndex) info }

end FeePallet

namespace Chain

variable (host : Host σ) (s : Chain σ)

/-- `withdraw_collected_fees`. -/
def withdrawCollectedFees (origin : Origin H160) (token target : H160) (amount : ℕ) :
    Except Error (Chain σ) := do
  ensure (origin = .root) .badOrigin
  ensure (amount ≠ 0) .invalidTokenConfig
  ensure (target ≠ 0) .invalidTokenConfig
  let (outer, ok) := host.transferToUser s.outer host.feeCollectorAddress token target amount
  ensure (ok = true) .erc20TransferFailed
  return { s with outer }

/-! ## Conversion -/

/-- The errors of a price, for the pallet. -/
def priceError : Halt OracleError → Halt Error
  | .panic => .panic
  | .error .stalePrice => .error .oraclePriceStale
  | .error .oracleNotRegistered => .error .oracleNotRegistered
  | .error _ => .error .oraclePriceFailed

/-- `is_erc20_fee_enabled`. -/
def isErc20FeeEnabled : Bool := (s.registry.getNativeCurrencyOracle host.nativeChainId).isSome

/-- `get_bfc_usd_price`, without a staleness check. -/
def getBfcUsdPrice : Except (Halt Error) ℕ := do
  let oracleId ← okOr (s.registry.getNativeCurrencyOracle host.nativeChainId) (.error .nativeOracleNotSet)
  (getOraclePriceFromRegistry host s.registry s.outer oracleId 0).mapError fun
    | .panic => .panic
    | .error _ => .error .oraclePriceFailed

/-- The price of the token, with the errors of the pallet. -/
def tokenUsdPrice (token : H160) (config : FeeTokenConfig) : Except (Halt Error) ℕ :=
  (getTokenPriceViaRegistry host s.registry s.outer token config.maxStalenessSeconds).mapError priceError

/-- The amount of tokens that is worth a native fee.  The power of ten is one of 128 bits. -/
def tokenAmount (nativeFee nativePrice tokenPrice : ℕ) (decimals : UInt8) : Option ℕ := do
  let value ← checkedMul 256 nativeFee nativePrice
  let raised ← checkedMul 256 value (10 ^ decimals.toNat % 2 ^ 128)
  checkedDiv (← checkedDiv raised tokenPrice) (10 ^ 18)

/-- `convert_native_to_token_with_prices`. -/
def convertNativeToTokenWithPrices (nativeFee : ℕ) (token : H160) :
    Except (Halt Error) (ℕ × ℕ × ℕ) := do
  let config ← okOr (s.fees.acceptedFeeTokens.get token) (.error .tokenNotAccepted)
  ensure config.enabled (.error .tokenDisabled)
  let bfcUsdPrice ← s.getBfcUsdPrice host
  let tokenUsdPrice ← s.tokenUsdPrice host token config
  let amount ← okOr (tokenAmount nativeFee bfcUsdPrice tokenUsdPrice config.decimals)
    (.error .priceOverflow)
  return (amount, tokenUsdPrice, bfcUsdPrice)

/-! ## The adapter -/

/-- Native amounts have 128 bits. -/
def saturated (fee : ℕ) : ℕ := min fee (2 ^ 128 - 1)

/-- `withdraw_native_fee`. -/
def withdrawNativeFee (who : H160) (fee : ℕ) : Except (Halt Error) (Chain σ × LiquidityInfo) := do
  let (outer, imbalance) ← okOr (host.withdraw s.outer who (saturated fee)) (.error .balanceLow)
  return ({ s with outer }, .native (some imbalance))

/-- `fallback_to_native`. -/
def fallbackToNative (who : H160) (fee : ℕ) : Except (Halt Error) (Chain σ × LiquidityInfo) :=
  s.withdrawNativeFee host who fee

/-- `withdraw_erc20_fee`, once there is an amount. -/
def takeTokens (who : H160) (nativeFee : ℕ) (w : Withdrawal) :
    Except (Halt Error) (Chain σ × LiquidityInfo) :=
  let (outer, ok) := host.executeFeeTransfer s.outer who w.token w.amount
  if ok then
    .ok
      ({ s with
          outer
          fees := s.fees.putPayment who w.txIndex
            ⟨w.token, w.amount, w.nativeEquivalent, w.tokenPrice, w.nativePrice⟩ },
        .erc20Withdrawn w)
  else { s with outer }.fallbackToNative host who nativeFee

/-- `withdraw_erc20_fee`. -/
def withdrawErc20Fee (who : H160) (nativeFee : ℕ) (token : H160) (txIndex : ℕ) :
    Except (Halt Error) (Chain σ × LiquidityInfo) :=
  match s.fees.acceptedFeeTokens.get token with
  | none => s.fallbackToNative host who nativeFee
  | some config =>
      if config.enabled = false then s.fallbackToNative host who nativeFee
      else
        match s.convertNativeToTokenWithPrices host nativeFee token with
        | .ok (amount, tokenPrice, nativePrice) =>
            s.takeTokens host who nativeFee ⟨token, amount, nativeFee, txIndex, tokenPrice, nativePrice⟩
        | .error (.error _) => s.fallbackToNative host who nativeFee
        | .error .panic => .error .panic

/-- The next transaction of the block. -/
def countTransaction : Chain σ :=
  { s with fees := { s.fees with currentTxIndex := saturatingAdd 32 s.fees.currentTxIndex 1 } }

/-- `withdraw_fee`. -/
def withdrawFee (who : H160) (fee : ℕ) : Except (Halt Error) (Chain σ × LiquidityInfo) :=
  let txIndex := s.fees.currentTxIndex
  let s := s.countTransaction
  if fee = 0 then .ok (s, .none)
  else if s.isErc20FeeEnabled host = false then s.withdrawNativeFee host who fee
  else
    match s.fees.userFeeToken.get who with
    | none => s.withdrawNativeFee host who fee
    | some token => s.withdrawErc20Fee host who fee token txIndex

/-- `correct_native_fee`.  An account that is gone gets no refund. -/
def correctNativeFee (who : H160) (correctedFee baseFee : ℕ) : Option ℕ → Chain σ × LiquidityInfo
  | none => (s, .none)
  | some paid =>
      let refundAmount := paid - saturated correctedFee
      let (outer, refund) := (host.depositIntoExisting s.outer who refundAmount).getD (s.outer, 0)
      let adjustedPaid := paid - refund
      let base := min adjustedPaid (saturated baseFee)
      ({ s with outer := host.onUnbalanced outer base }, .native (some (adjustedPaid - base)))

/-- The part of the tokens that the transaction has used. -/
def actualTokenAmount (withdrawnAmount correctedFee nativeEquivalent : ℕ) : ℕ :=
  portion 256 withdrawnAmount correctedFee nativeEquivalent withdrawnAmount

/-- The part of the used tokens that is above the base fee. -/
def tipTokenAmount (actualTokenAmount correctedFee baseFee : ℕ) : ℕ :=
  if baseFee < correctedFee ∧ correctedFee ≠ 0 then
    actualTokenAmount - portion 256 actualTokenAmount baseFee correctedFee actualTokenAmount
  else 0

/-- `correct_erc20_fee`. -/
def correctErc20Fee (who : H160) (correctedFee baseFee : ℕ) (w : Withdrawal) : Chain σ × LiquidityInfo :=
  if w.nativeEquivalent = 0 then (s, .none)
  else
    let actual := actualTokenAmount w.amount correctedFee w.nativeEquivalent
    let refundAmount := w.amount - actual
    let outer :=
      if refundAmount = 0 then s.outer else (host.refundToken s.outer who w.token refundAmount).1
    ({ s with
        outer
        fees := s.fees.putPayment who w.txIndex
          ⟨w.token, actual, correctedFee, w.tokenPrice, w.nativePrice⟩ },
      .erc20Tip w.token (tipTokenAmount actual correctedFee baseFee))

/-- `correct_and_deposit_fee`. -/
def correctAndDepositFee (who : H160) (correctedFee baseFee : ℕ) :
    LiquidityInfo → Chain σ × LiquidityInfo
  | .none => (s, .none)
  | .native imbalance => s.correctNativeFee host who correctedFee baseFee imbalance
  | .erc20Withdrawn w => s.correctErc20Fee host who correctedFee baseFee w
  | .erc20Tip _ _ => (s, .none)

/-- `pay_priority_fee`. -/
def payPriorityFee : LiquidityInfo → Chain σ
  | .native (some tip) =>
      { s with
        outer := ((host.depositIntoExisting s.outer (host.findAuthor s.outer) tip).map Prod.fst).getD
          s.outer }
  | .erc20Tip token tipAmount =>
      if tipAmount = 0 then s
      else
        { s with
          outer := (host.transferToUser s.outer host.feeCollectorAddress token
            (host.findAuthor s.outer) tipAmount).1 }
  | _ => s

/-! ## The machine -/

/-- A transaction: the fee is withdrawn, it runs, and the fee is corrected and paid out. -/
def transact (who : H160) (fee : ℕ) (execute : σ → σ) (correctedFee baseFee : ℕ) :
    Except (Halt Error) (Chain σ) := do
  let (s, withdrawn) ← s.withdrawFee host who fee
  let (s, tip) := { s with outer := execute s.outer }.correctAndDepositFee host who correctedFee baseFee
    withdrawn
  return s.payPriorityFee host tip

/-- What can happen: the calls of both pallets, transactions, the next block, and anything outside. -/
inductive Step (σ : Type)
  | setAssetOracle (origin : Origin H160) (asset : H160) (oracleId : H256)
  | removeAssetOracle (origin : Origin H160) (asset : H160)
  | setNativeCurrencyOracle (origin : Origin H160) (chainId : ℕ) (oracleId : H256)
  | removeNativeCurrencyOracle (origin : Origin H160) (chainId : ℕ)
  | setOracleManagerContract (origin : Origin H160) (contract : H160)
  | removeOracleManagerContract (origin : Origin H160)
  | setAssetAggregator (origin : Origin H160) (asset aggregatorContract : H160) (decimal : UInt8)
  | removeAssetAggregator (origin : Origin H160) (asset : H160)
  | addFeeToken (origin : Origin H160) (token : H160) (config : FeeTokenConfig)
  | removeFeeToken (origin : Origin H160) (token : H160)
  | updateFeeToken (origin : Origin H160) (token : H160) (config : FeeTokenConfig)
  | setUserFeeToken (who : H160) (token : Option H160)
  | withdrawCollectedFees (origin : Origin H160) (token target : H160) (amount : ℕ)
  | transact (who : H160) (fee : ℕ) (execute : σ → σ) (correctedFee baseFee : ℕ)
  | onInitialize
  | outside (change : σ → σ)

/-- A call of the registry. -/
def onRegistry (r : Except RegistryError OracleRegistry) : Chain σ :=
  { s with registry := commit s.registry r }

/-- A call of the pallet. -/
def onFees (r : Except Error FeePallet) : Chain σ := { s with fees := commit s.fees r }

/-- Calls are transactional, and a transaction whose fee cannot be withdrawn does not happen. -/
def step : Step σ → Option (Chain σ)
  | .setAssetOracle origin asset oracleId =>
      some (s.onRegistry (s.registry.setAssetOracle origin asset oracleId))
  | .removeAssetOracle origin asset => some (s.onRegistry (s.registry.removeAssetOracle origin asset))
  | .setNativeCurrencyOracle origin chainId oracleId =>
      some (s.onRegistry (s.registry.setNativeCurrencyOracle origin chainId oracleId))
  | .removeNativeCurrencyOracle origin chainId =>
      some (s.onRegistry (s.registry.removeNativeCurrencyOracle origin chainId))
  | .setOracleManagerContract origin contract =>
      some (s.onRegistry (s.registry.setOracleManagerContract origin contract))
  | .removeOracleManagerContract origin =>
      some (s.onRegistry (s.registry.removeOracleManagerContract origin))
  | .setAssetAggregator origin asset aggregatorContract decimal =>
      some (s.onRegistry (s.registry.setAssetAggregator origin asset aggregatorContract decimal))
  | .removeAssetAggregator origin asset =>
      some (s.onRegistry (s.registry.removeAssetAggregator origin asset))
  | .addFeeToken origin token config => some (s.onFees (s.fees.addFeeToken origin token config))
  | .removeFeeToken origin token => some (s.onFees (s.fees.removeFeeToken origin token))
  | .updateFeeToken origin token config => some (s.onFees (s.fees.updateFeeToken origin token config))
  | .setUserFeeToken who token => some (s.onFees (s.fees.setUserFeeToken who token))
  | .withdrawCollectedFees origin token target amount =>
      some (commit s (s.withdrawCollectedFees host origin token target amount))
  | .transact who fee execute correctedFee baseFee =>
      (s.transact host who fee execute correctedFee baseFee).toOption
  | .onInitialize => some { s with fees := s.fees.onInitialize }
  | .outside change => some { s with outer := change s.outer }

end Chain

end BifrostNode.Fees
