import BifrostNode.Lib.Words
import BifrostNode.Fees.Registry

/-!
# Prices

The fee pallet reads prices in dollars with 18 decimals, from the oracle manager or, for an asset whose
oracle id is zero, from its aggregator.

**Panics.**  A call ends with a result, with an error that the caller handles, or with a panic that nobody
does.  `Halt` keeps the last two apart.  The one operation of this module that panics is the power of ten
that brings an aggregator's answer to 18 decimals.
-/

namespace BifrostNode.Fees

open Cccp Staking Transition Words

/-- How a call ends without a result. -/
inductive Halt (ε : Type)
  | panic
  | error (e : ε)
  deriving DecidableEq

inductive OracleError
  | callFailed
  | invalidPrice
  | stalePrice
  | oracleNotRegistered
  deriving DecidableEq

/-- `U256::pow`. -/
def u256Pow {ε : Type} (base exponent : ℕ) : Except (Halt ε) ℕ :=
  okOr (checkedPow 256 base exponent) .panic

/-- The staleness check that both sources of prices share.  A limit of zero turns it off. -/
def isStale (maxStalenessSeconds now time : ℕ) : Bool :=
  0 < maxStalenessSeconds ∧
    (time = 0 ∨ maxStalenessSeconds < lowU64 (now / 1000) - time)

variable {σ : Type} (host : Host σ) (s : OracleRegistry) (outer : σ)

/-- `get_oracle_price_from_registry`. -/
def getOraclePriceFromRegistry (oracleId : H256) (maxStalenessSeconds : ℕ) :
    Except (Halt OracleError) ℕ := do
  let info ← okOr (s.getLatestOracleInfo host outer oracleId) (.error .callFailed)
  ensure (info.data ≠ 0) (.error .invalidPrice)
  ensure (isStale maxStalenessSeconds (host.now outer) info.time = false) (.error .stalePrice)
  return info.data

/-- An answer with the aggregator's decimals, with 18 decimals. -/
def normalise (answer : ℕ) (decimal : UInt8) : Except (Halt OracleError) ℕ :=
  if decimal.toNat ≤ 18 then do
    return saturatingMul 256 answer (← u256Pow 10 (18 - decimal.toNat))
  else do
    return answer / (← u256Pow 10 (decimal.toNat - 18))

/-- An answer that is negative has its highest bit set. -/
def isPositive (answer : ℕ) : Bool := answer ≠ 0 ∧ answer.testBit 255 = false

/-- `get_aggregator_price_from_registry`. -/
def getAggregatorPriceFromRegistry (token : H160) (maxStalenessSeconds : ℕ) :
    Except (Halt OracleError) ℕ := do
  let aggregatorInfo ← okOr (s.getAggregatorInfo token) (.error .callFailed)
  let roundData ← okOr (s.getLatestRoundData host outer token) (.error .callFailed)
  ensure (isPositive roundData.answer = true) (.error .invalidPrice)
  let price ← normalise roundData.answer aggregatorInfo.decimal
  ensure (price ≠ 0) (.error .invalidPrice)
  ensure (isStale maxStalenessSeconds (host.now outer) (lowU64 roundData.updatedAt) = false)
    (.error .stalePrice)
  return price

/-- `get_token_price_via_registry`. -/
def getTokenPriceViaRegistry (token : H160) (maxStalenessSeconds : ℕ) : Except (Halt OracleError) ℕ := do
  let oracleId ← okOr (s.getAssetOracle token) (.error .oracleNotRegistered)
  if oracleId = 0 then getAggregatorPriceFromRegistry host s outer token maxStalenessSeconds
  else getOraclePriceFromRegistry host s outer oracleId maxStalenessSeconds

/-! ## Powers of ten -/

variable {ε : Type} {answer price maxStalenessSeconds : ℕ} {decimal : UInt8} {token : H160}

lemma ten_pow_lt_iff (n : ℕ) : 10 ^ n < 2 ^ 256 ↔ n < 78 := by
  constructor
  · intro h
    by_contra hn
    have hpow : 10 ^ 78 ≤ 10 ^ n := Nat.pow_le_pow_right (by decide) (by omega)
    have hbig : 2 ^ 256 < 10 ^ 78 := by norm_num
    omega
  · intro h
    have hpow : 10 ^ n ≤ 10 ^ 77 := Nat.pow_le_pow_right (by decide) (by omega)
    have hsmall : 10 ^ 77 < 2 ^ 256 := by norm_num
    omega

lemma u256Pow_ten_of_lt {n : ℕ} (h : n < 78) : u256Pow 10 n = (.ok (10 ^ n) : Except (Halt ε) ℕ) := by
  rw [u256Pow, checkedPow, if_pos ((ten_pow_lt_iff n).mpr h)]
  rfl

lemma u256Pow_ten_of_le {n : ℕ} (h : 78 ≤ n) : u256Pow 10 n = (.error .panic : Except (Halt ε) ℕ) := by
  rw [u256Pow, checkedPow, if_neg fun hlt => by have := (ten_pow_lt_iff n).mp hlt; omega]
  rfl

/-! ## Answers -/

/-- The answer with 18 decimals, rounded down. -/
def scaled (answer : ℕ) (decimal : UInt8) : ℕ := answer * 10 ^ 18 / 10 ^ decimal.toNat

lemma scaled_of_le (h : decimal.toNat ≤ 18) :
    scaled answer decimal = answer * 10 ^ (18 - decimal.toNat) := by
  have hsplit : 10 ^ 18 = 10 ^ (18 - decimal.toNat) * 10 ^ decimal.toNat := by
    rw [← pow_add, Nat.sub_add_cancel h]
  rw [scaled, hsplit, ← Nat.mul_assoc]
  exact Nat.mul_div_cancel _ (Nat.pow_pos (by decide))

lemma scaled_of_lt (h : 18 < decimal.toNat) :
    scaled answer decimal = answer / 10 ^ (decimal.toNat - 18) := by
  have hsplit : 10 ^ decimal.toNat = 10 ^ (decimal.toNat - 18) * 10 ^ 18 := by
    rw [← pow_add, Nat.sub_add_cancel h.le]
  rw [scaled, hsplit]
  exact Nat.mul_div_mul_right _ _ (Nat.pow_pos (by decide))

/-- The scaled answer, or the largest word where it does not fit. -/
def clipped (answer : ℕ) (decimal : UInt8) : ℕ :=
  if decimal.toNat ≤ 18 then saturatingMul 256 answer (10 ^ (18 - decimal.toNat))
  else scaled answer decimal

lemma normalise_of_lt (h : decimal.toNat < 96) :
    normalise answer decimal = .ok (clipped answer decimal) := by
  rw [normalise, clipped]
  split_ifs with hle
  · rw [u256Pow_ten_of_lt (by omega)]
    rfl
  · rw [u256Pow_ten_of_lt (by omega), scaled_of_lt (by omega)]
    rfl

lemma normalise_of_le (h : 96 ≤ decimal.toNat) : normalise answer decimal = .error .panic := by
  rw [normalise, if_neg (by omega), u256Pow_ten_of_le (by omega)]
  rfl

/-- The answer is clipped when it takes more than a word. -/
lemma clipped_eq_scaled (hanswer : answer < 2 ^ 256) :
    clipped answer decimal = scaled answer decimal ↔ scaled answer decimal < 2 ^ 256 := by
  rw [clipped]
  split_ifs with hle
  · rw [scaled_of_le hle]
    constructor
    · intro h
      by_contra hnot
      exact saturatingMul_ne (by omega) h
    · exact saturatingMul_of_lt
  · simp only [true_iff]
    rw [scaled_of_lt (by omega)]
    exact (Nat.div_le_self _ _).trans_lt hanswer

end BifrostNode.Fees
