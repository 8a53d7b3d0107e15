import BifrostNode.Lib.Transition
import BifrostNode.Cccp.Message
import BifrostNode.Staking.Types

/-!
# The oracle registry

`oracle-registry` says where prices come from: an oracle id for each asset and each native currency, an
aggregator contract for some of the assets, and the contract that is asked for the oracles.

**The EVM** is outside, with a state of its own.  `Host` is what the pallets use of it, and of the native
currency and the clock next to it.
-/

namespace BifrostNode.Fees

open Cccp Staking Transition

/-! ## Outside -/

/-- `pallet_evm::ExitReason`, as far as it is told apart. -/
inductive ExitReason
  | succeed
  | other
  deriving DecidableEq

/-- `pallet_evm::CallInfo`, as far as it is read. -/
structure CallInfo where
  exitReason : ExitReason
  value : Bytes
  deriving DecidableEq

/-- What is around the pallets, and their configuration.  An imbalance is its amount. -/
structure Host (σ : Type) where
  /-- `Runner::call_as_internal_call`: source, target, input and gas limit. -/
  callAsInternalCall : σ → H160 → H160 → Bytes → ℕ → σ × Option CallInfo
  /-- `Runner::view_call`. -/
  viewCall : σ → H160 → H160 → Bytes → ℕ → Option CallInfo
  /-- `Timestamp::now`, in milliseconds. -/
  now : σ → ℕ
  findAuthor : σ → H160
  /-- `Currency::withdraw`. -/
  withdraw : σ → H160 → ℕ → Option (σ × ℕ)
  /-- `Currency::deposit_into_existing`. -/
  depositIntoExisting : σ → H160 → ℕ → Option (σ × ℕ)
  onUnbalanced : σ → ℕ → σ
  feeCollectorAddress : H160
  nativeChainId : ℕ

/-- The big endian bytes of a number, as many as asked for. -/
def toBigEndian : ℕ → ℕ → Bytes
  | 0, _ => []
  | width + 1, n => toBigEndian width (n / 256) ++ [.ofNat n]

/-- The word at a position of the data. -/
def wordAt (data : Bytes) (i : ℕ) : ℕ := ofBeBytes ((data.drop (32 * i)).take 32)

/-- `U256::low_u64`. -/
def lowU64 (n : ℕ) : ℕ := n % 2 ^ 64

/-- A view call that has succeeded. -/
def Host.view {σ : Type} (host : Host σ) (outer : σ) (target : H160) (input : Bytes) : Option Bytes := do
  let result ← host.viewCall outer 0 target input 100000
  if result.exitReason = .succeed then some result.value else none

/-! ## Records -/

inductive OracleKey
  | asset (asset : H160)
  | nativeCurrency (chainId : ℕ)
  deriving DecidableEq

structure AggregatorInfo where
  address : H160
  decimal : UInt8
  deriving DecidableEq

/-- What `last_oracle_info` returns. -/
structure OracleInfo where
  round : ℕ
  data : ℕ
  block : ℕ
  time : ℕ
  authorityRound : ℕ
  reserved : ℕ
  deriving DecidableEq

/-- What `latestRoundData` returns. -/
structure AggregatorRoundData where
  roundId : ℕ
  answer : ℕ
  startedAt : ℕ
  updatedAt : ℕ
  answeredInRound : ℕ
  deriving DecidableEq

/-- `last_oracle_info(bytes32)` of the oracle manager. -/
def OracleInfo.encodeCalldata (oracleId : H256) : Bytes :=
  [0xa1, 0x6d, 0x4d, 0x76] ++ toBigEndian 32 oracleId.val

def OracleInfo.decodeReturn (data : Bytes) : Option OracleInfo :=
  if data.length < 192 then none
  else
    some
      { round := wordAt data 0
        data := wordAt data 1
        block := lowU64 (wordAt data 2)
        time := lowU64 (wordAt data 3)
        authorityRound := lowU64 (wordAt data 4)
        reserved := lowU64 (wordAt data 5) }

/-- `latestRoundData()` of an aggregator. -/
def AggregatorRoundData.encodeCalldata : Bytes := [0xfe, 0xaf, 0x96, 0x8c]

def AggregatorRoundData.decodeReturn (data : Bytes) : Option AggregatorRoundData :=
  if data.length < 160 then none
  else
    some
      { roundId := wordAt data 0
        answer := wordAt data 1
        startedAt := wordAt data 2
        updatedAt := wordAt data 3
        answeredInRound := wordAt data 4 }

/-! ## Storage and calls -/

inductive RegistryError
  | assetDNE
  | nativeCurrencyChainDNE
  | oracleManagerContractDNE
  | noWritingSameValue
  | badOrigin
  deriving DecidableEq

/-- The storage of the pallet. -/
structure OracleRegistry where
  oracles : StorageMap OracleKey H256
  aggregators : StorageMap H160 AggregatorInfo
  oracleManagerContract : Option H160

namespace OracleRegistry

/-- Nothing is stored at genesis. -/
def genesis : OracleRegistry := ⟨∅, ∅, none⟩

/-- `set_asset_oracle` and `set_native_currency_oracle`, with the key each of them writes. -/
def setOracle (s : OracleRegistry) (origin : Origin H160) (key : OracleKey) (oracleId : H256) :
    Except RegistryError OracleRegistry := do
  ensure (origin = .root) .badOrigin
  ensure (s.oracles.get key ≠ some oracleId) .noWritingSameValue
  return { s with oracles := s.oracles.insert key oracleId }

/-- `remove_asset_oracle` and `remove_native_currency_oracle`. -/
def removeOracle (s : OracleRegistry) (origin : Origin H160) (key : OracleKey) (e : RegistryError) :
    Except RegistryError OracleRegistry := do
  ensure (origin = .root) .badOrigin
  ensure (s.oracles.contains key) e
  return { s with oracles := s.oracles.remove key }

def setAssetOracle (s : OracleRegistry) (origin : Origin H160) (asset : H160) (oracleId : H256) :
    Except RegistryError OracleRegistry := s.setOracle origin (.asset asset) oracleId

def removeAssetOracle (s : OracleRegistry) (origin : Origin H160) (asset : H160) :
    Except RegistryError OracleRegistry := s.removeOracle origin (.asset asset) .assetDNE

def setNativeCurrencyOracle (s : OracleRegistry) (origin : Origin H160) (chainId : ℕ) (oracleId : H256) :
    Except RegistryError OracleRegistry := s.setOracle origin (.nativeCurrency chainId) oracleId

def removeNativeCurrencyOracle (s : OracleRegistry) (origin : Origin H160) (chainId : ℕ) :
    Except RegistryError OracleRegistry :=
  s.removeOracle origin (.nativeCurrency chainId) .nativeCurrencyChainDNE

def setOracleManagerContract (s : OracleRegistry) (origin : Origin H160) (contract : H160) :
    Except RegistryError OracleRegistry := do
  ensure (origin = .root) .badOrigin
  ensure (s.oracleManagerContract ≠ some contract) .noWritingSameValue
  return { s with oracleManagerContract := some contract }

def removeOracleManagerContract (s : OracleRegistry) (origin : Origin H160) :
    Except RegistryError OracleRegistry := do
  ensure (origin = .root) .badOrigin
  ensure s.oracleManagerContract.isSome .oracleManagerContractDNE
  return { s with oracleManagerContract := none }

/-- `set_asset_aggregator`.  An aggregator that is there is only replaced by another contract with the same
decimals; any decimals do for the first one. -/
def setAssetAggregator (s : OracleRegistry) (origin : Origin H160) (asset aggregatorContract : H160)
    (decimal : UInt8) : Except RegistryError OracleRegistry := do
  ensure (origin = .root) .badOrigin
  match s.aggregators.get asset with
  | some current => do
      ensure (current.address ≠ aggregatorContract) .noWritingSameValue
      ensure (current.decimal = decimal) .noWritingSameValue
  | none => pure ()
  return { s with aggregators := s.aggregators.insert asset ⟨aggregatorContract, decimal⟩ }

def removeAssetAggregator (s : OracleRegistry) (origin : Origin H160) (asset : H160) :
    Except RegistryError OracleRegistry := do
  ensure (origin = .root) .badOrigin
  ensure (s.aggregators.contains asset) .assetDNE
  return { s with aggregators := s.aggregators.remove asset }

/-! ## Queries -/

variable {σ : Type}

def getAssetOracle (s : OracleRegistry) (asset : H160) : Option H256 := s.oracles.get (.asset asset)

def getNativeCurrencyOracle (s : OracleRegistry) (chainId : ℕ) : Option H256 :=
  s.oracles.get (.nativeCurrency chainId)

def getLatestOracleInfo (host : Host σ) (s : OracleRegistry) (outer : σ) (oracleId : H256) :
    Option OracleInfo := do
  let contract ← s.oracleManagerContract
  OracleInfo.decodeReturn (← host.view outer contract (OracleInfo.encodeCalldata oracleId))

def getAggregatorInfo (s : OracleRegistry) (asset : H160) : Option AggregatorInfo := s.aggregators.get asset

def getLatestRoundData (host : Host σ) (s : OracleRegistry) (outer : σ) (asset : H160) :
    Option AggregatorRoundData := do
  let aggregator ← s.aggregators.get asset
  AggregatorRoundData.decodeReturn
    (← host.view outer aggregator.address AggregatorRoundData.encodeCalldata)

end OracleRegistry

end BifrostNode.Fees
