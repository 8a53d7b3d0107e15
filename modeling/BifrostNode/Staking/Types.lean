import BifrostNode.Lib.StorageMap

/-!
# Data types of `bfc-staking`

The records of `pallets/bfc-staking/src/lib.rs` and the constants of its `Config`, under the
source's names.  `AccountId` stays a type variable.  Balances are `u128` in every runtime and
each of them is part of the total issuance, so sums of balances never reach `2 ^ 128`: balances,
like round, session and block numbers, are `ℕ` with exact addition.  Saturating subtraction is
`ℕ` subtraction, and the few unchecked subtractions, which wrap in a release build, are
`wrappingSub`.

Block weights, events and log lines are left out.  Everything else a modelled function reads or
writes is here.
-/

namespace BifrostNode.Staking

/-- Unchecked `u128` subtraction: it wraps below zero. -/
def wrappingSub (a b : ℕ) : ℕ := if b ≤ a then a - b else 2 ^ 128 + a - b

/-- Unchecked `u32` subtraction. -/
def wrappingSubU32 (a b : ℕ) : ℕ := if b ≤ a then a - b else 2 ^ 32 + a - b

/-! ## Parts per billion -/

/-- `sp_arithmetic::Perbill`: at most one billion parts. -/
structure Perbill where
  parts : ℕ
  parts_le : parts ≤ 1000000000
  deriving DecidableEq

namespace Perbill

/-- `Perbill::from_parts` clamps to one. -/
def fromParts (n : ℕ) : Perbill := ⟨min n 1000000000, min_le_right _ _⟩

def fromPercent (n : ℕ) : Perbill := fromParts (n * 10000000)

def zero : Perbill := fromParts 0

def one : Perbill := fromParts 1000000000

/-- `Perbill::from_rational`: rounds down, and is one when the fraction is not below one. -/
def fromRational (p q : ℕ) : Perbill := if q ≤ p then one else fromParts (p * 1000000000 / q)

/-- `Perbill * Balance`: rounds to the nearest integer, ties down. -/
def mul (p : Perbill) (x : ℕ) : ℕ :=
  x * p.parts / 1000000000 + if 500000000 < x * p.parts % 1000000000 then 1 else 0

/-- A part of `x` is at most `x`, also after rounding to the nearest. -/
lemma mul_le (p : Perbill) (x : ℕ) : p.mul x ≤ x := by
  have hp := p.parts_le
  have hxp : x * p.parts ≤ x * 1000000000 := Nat.mul_le_mul_left _ hp
  have hdiv := Nat.div_add_mod (x * p.parts) 1000000000
  rw [mul]
  split_ifs <;> omega

end Perbill

instance : Inhabited Perbill := ⟨Perbill.zero⟩

/-- `inflation::Range`: three values of one quantity. -/
structure Range (α : Type) where
  min : α
  ideal : α
  max : α
  deriving DecidableEq

/-- `Range::is_valid` on balances. -/
def Range.isValid (r : Range ℕ) : Bool := decide (r.ideal ≤ r.max) && decide (r.min ≤ r.ideal)

/-- `Range::is_valid` on rates. -/
def Range.isValidRate (r : Range Perbill) : Bool :=
  decide (r.ideal.parts ≤ r.max.parts) && decide (r.min.parts ≤ r.ideal.parts)

/-- `inflation::InflationInfo`. -/
structure InflationInfo where
  expect : Range ℕ
  annual : Range Perbill
  round : Range Perbill
  deriving DecidableEq

/-! ## Enumerations -/

/-- `bp_staking::TierType`. -/
inductive TierType
  | full
  | basic
  | all
  deriving DecidableEq

inductive ValidatorStatus
  | active
  | idle
  | kickedOut
  | leaving (when : ℕ)
  deriving DecidableEq

inductive RewardDestination
  | staked
  | account
  deriving DecidableEq

inductive CapacityStatus
  | full
  | empty
  | partially
  deriving DecidableEq

inductive ProductivityStatus
  | active
  | idle
  | ready
  deriving DecidableEq

inductive NominatorStatus
  | active
  | leaving (when : ℕ)
  deriving DecidableEq

inductive NominationChange
  | revoke
  | decrease
  deriving DecidableEq

/-- `NominatorAdded`: which list took a new nomination. -/
inductive NominatorAdded
  | addedToTop (newTotal : ℕ)
  | addedToBottom
  deriving DecidableEq

/-- The errors a dispatchable of this pallet returns: those of `pallet::Error`, the origin check
of `frame_system`, a failed reserve of the currency and a failed call into the relay manager.
The last one is no error value but the panic of an out-of-range list access; like an error it
leaves no trace in the state. -/
inductive Error
  | nominatorDNE
  | candidateDNE
  | stashDNE
  | nominationDNE
  | topNominationDNE
  | bottomNominationDNE
  | commissionSetDNE
  | controllerSetDNE
  | nominatorExists
  | candidateExists
  | candidateBondBelowMin
  | insufficientBalance
  | nominatorBondBelowMin
  | nominationBelowMin
  | alreadyOffline
  | alreadyActive
  | alreadyBonded
  | alreadyPaired
  | nominatorAlreadyLeaving
  | nominatorNotLeaving
  | nominatorCannotLeaveYet
  | cannotNominateIfLeaving
  | candidateAlreadyLeaving
  | candidateNotLeaving
  | candidateCannotLeaveYet
  | cannotGoOnlineIfLeaving
  | cannotLeaveIfOffline
  | cannotLeaveIfControllerSetRequested
  | cannotLeaveIfCommissionSetRequested
  | exceedMaxNominationsPerNominator
  | alreadyNominatedCandidate
  | alreadyControllerSetRequested
  | alreadyCommissionSetRequested
  | invalidSchedule
  | invalidTierType
  | cannotSetBelowMin
  | cannotSetBelowOne
  | cannotSetAboveMax
  | roundLengthMustBeAtLeastTotalSelectedValidators
  | roundLengthMustBeLongerThanCreatedBlocks
  | noWritingSameValue
  | tooManyCandidates
  | tooManyDelayedControllers
  | tooManyDelayedCommissions
  | tooLowCandidateCountWeightHintJoinCandidates
  | tooLowCandidateCountWeightHintCancelLeaveCandidates
  | tooLowCandidateCountToLeaveCandidates
  | tooLowNominationCountToNominate
  | tooLowCandidateNominationCountToNominate
  | tooLowCandidateNominationCountToLeaveCandidates
  | tooLowNominationCountToLeaveNominators
  | pendingCandidateRequestsDNE
  | pendingCandidateRequestAlreadyExists
  | pendingCandidateRequestNotDueYet
  | pendingNominationRequestDNE
  | pendingNominationRequestAlreadyExists
  | pendingNominationRequestNotDueYet
  | cannotNominateLessThanLowestBottomWhenBottomIsFull
  | badOrigin
  | currency
  | relayManager
  | indexOutOfBounds
  deriving DecidableEq

/-! ## Records -/

variable {AccountId : Type}

/-- `frame_system::RawOrigin`. -/
inductive Origin (AccountId : Type)
  | root
  | signed (who : AccountId)
  | none
  deriving DecidableEq

structure Bond (AccountId : Type) where
  owner : AccountId
  amount : ℕ
  deriving DecidableEq

/-- The top or the bottom nominations of one candidate, with their cached total. -/
structure Nominations (AccountId : Type) where
  nominations : List (Bond AccountId)
  total : ℕ

structure ValidatorSnapshot (AccountId : Type) where
  bond : ℕ
  nominations : List (Bond AccountId)
  total : ℕ
  deriving DecidableEq

/-- `ValidatorSnapshot::default`, what an absent `AtStake` entry reads as. -/
def ValidatorSnapshot.default : ValidatorSnapshot AccountId := ⟨0, [], 0⟩

structure CandidateBondLessRequest where
  amount : ℕ
  whenExecutable : ℕ
  deriving DecidableEq

structure CandidateMetadata (AccountId : Type) where
  stash : AccountId
  bond : ℕ
  initialBond : ℕ
  nominationCount : ℕ
  votingPower : ℕ
  lowestTopNominationAmount : ℕ
  highestBottomNominationAmount : ℕ
  lowestBottomNominationAmount : ℕ
  topCapacity : CapacityStatus
  bottomCapacity : CapacityStatus
  request : Option CandidateBondLessRequest
  status : ValidatorStatus
  isSelected : Bool
  commission : Perbill
  lastBlock : ℕ
  blocksProduced : ℕ
  productivity : Perbill
  productivityStatus : ProductivityStatus
  rewardDst : RewardDestination
  awardedTokens : ℕ
  tier : TierType

structure NominationRequest (AccountId : Type) where
  validator : AccountId
  amount : ℕ
  whenExecutable : ℕ
  action : NominationChange

structure PendingNominationRequests (AccountId : Type) where
  revocationsCount : ℕ
  requests : StorageMap AccountId (NominationRequest AccountId)
  lessTotal : ℕ

structure Nominator (AccountId : Type) where
  id : AccountId
  nominations : StorageMap AccountId ℕ
  initialNominations : StorageMap AccountId ℕ
  total : ℕ
  requests : PendingNominationRequests AccountId
  status : NominatorStatus
  rewardDst : RewardDestination
  awardedTokens : ℕ
  awardedTokensPerCandidate : StorageMap AccountId ℕ

structure DelayedControllerSet (AccountId : Type) where
  stash : AccountId
  old : AccountId
  new : AccountId

structure DelayedCommissionSet (AccountId : Type) where
  who : AccountId
  old : Perbill
  new : Perbill

structure DelayedPayout where
  roundIssuance : ℕ
  totalStakingReward : ℕ
  validatorCommission : Perbill

structure TotalSnapshot where
  totalSelfBond : ℕ
  activeSelfBond : ℕ
  totalNominations : ℕ
  totalTopNominations : ℕ
  totalBottomNominations : ℕ
  activeNominations : ℕ
  activeTopNominations : ℕ
  activeBottomNominations : ℕ
  totalNominators : ℕ
  totalTopNominators : ℕ
  totalBottomNominators : ℕ
  activeNominators : ℕ
  activeTopNominators : ℕ
  activeBottomNominators : ℕ
  totalStake : ℕ
  activeStake : ℕ
  totalVotingPower : ℕ
  activeVotingPower : ℕ

/-- `TotalSnapshot::default`. -/
def TotalSnapshot.default : TotalSnapshot :=
  ⟨0, 0, 0, 0, 0, 0, 0, 0, 0, 0, 0, 0, 0, 0, 0, 0, 0, 0⟩

structure RoundInfo where
  currentRoundIndex : ℕ
  firstSessionIndex : ℕ
  currentSessionIndex : ℕ
  firstRoundBlock : ℕ
  firstSessionBlock : ℕ
  currentBlock : ℕ
  roundLength : ℕ
  sessionLength : ℕ
  deriving DecidableEq

/-- `bp_staking::MAX_AUTHORITIES`. -/
def maxAuthorities : ℕ := 1000

/-- The constants of `pallet::Config`.  The last four fields are facts about them that hold in
every runtime of the repository (`MinNomination` is `MinNominatorStk`, a positive constant, and
both list sizes are positive).  `perbillAnnualToPerbillRound` is the conversion that
`inflation.rs` computes with the fixed-point power function of `substrate_fixed`. -/
structure Config (AccountId : Type) where
  defaultBlocksPerSession : ℕ
  defaultBlocksPerRound : ℕ
  minBlocksPerRound : ℕ
  maxBlocksPerRound : ℕ
  storageCacheLifetimeInRounds : ℕ
  leaveCandidatesDelay : ℕ
  candidateBondLessDelay : ℕ
  leaveNominatorsDelay : ℕ
  revokeNominationDelay : ℕ
  nominationBondLessDelay : ℕ
  rewardPaymentDelay : ℕ
  defaultMaxSelectedFullCandidates : ℕ
  defaultMaxSelectedBasicCandidates : ℕ
  maxTopNominationsPerCandidate : ℕ
  maxBottomNominationsPerCandidate : ℕ
  maxNominationsPerNominator : ℕ
  defaultFullValidatorCommission : Perbill
  defaultBasicValidatorCommission : Perbill
  maxFullValidatorCommission : Perbill
  maxBasicValidatorCommission : Perbill
  minFullValidatorStk : ℕ
  minBasicValidatorStk : ℕ
  minFullCandidateStk : ℕ
  minBasicCandidateStk : ℕ
  minNomination : ℕ
  minNominatorStk : ℕ
  monetaryGovernanceOrigin : Origin AccountId → Bool
  perbillAnnualToPerbillRound : Range Perbill → ℕ → Range Perbill
  one_le_maxTop : 1 ≤ maxTopNominationsPerCandidate
  one_le_maxBottom : 1 ≤ maxBottomNominationsPerCandidate
  one_le_minNomination : 1 ≤ minNomination
  minNomination_le_minNominatorStk : minNomination ≤ minNominatorStk

end BifrostNode.Staking
