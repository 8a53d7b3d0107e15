import BifrostNode.Staking.NominatorCalls

/-!
# The state of the pallet

The ledger together with everything that turns on sessions and rounds: the selected sets and
their caches, the points and snapshots that rewards are computed from, the delayed changes, and
the parameters that governance sets.

Two neighbours appear in it.  The offence ledger of `bfc-offences` is modelled as it is, since it
decides what is slashed.  The relay manager is a parameter: a state type `R` and the functions of
the `RelayManager` trait on it, about which nothing is assumed.

The bounded collections of the source hold at most `MAX_AUTHORITIES` elements.  The bound is
checked where elements come from outside (`CandidatePool`, the delayed sets); the selected sets
and the renames draw their elements from the pool and cannot exceed it.
-/

namespace BifrostNode.Staking

variable {AccountId R : Type} [LinearOrder AccountId]

/-! ## Neighbours -/

/-- The `RelayManager` trait of `bp_staking`, as `bfc-staking` calls it. -/
structure RelayManager (AccountId R : Type) where
  joinRelayers : R → AccountId → AccountId → Except Error R
  leaveRelayers : R → AccountId → R
  kickoutRelayer : R → AccountId → R
  refreshRound : R → ℕ → R
  handleDelayedRelayerSets : R → ℕ → R
  refreshSelectedRelayers : R → ℕ → List AccountId → R
  refreshMajority : R → ℕ → R
  replaceBondedController : R → AccountId → AccountId → R
  collectHeartbeats : R → R

/-- `bp_staking::Offence`. -/
structure Offence where
  roundIndex : ℕ
  sessionIndex : ℕ
  selfBond : ℕ
  totalSlash : ℕ
  offenderSlash : ℕ
  nominatorsSlash : ℕ
  slashFraction : Perbill

/-- `ValidatorOffenceInfo` of `bfc-offences`. -/
structure ValidatorOffenceInfo where
  latestOffenceRoundIndex : ℕ
  latestOffenceSessionIndex : ℕ
  offenceCount : ℕ
  aggregatedSlashFraction : Perbill
  offences : List Offence

namespace ValidatorOffenceInfo

def new (offence : Offence) : ValidatorOffenceInfo :=
  ⟨offence.roundIndex, offence.sessionIndex, 1, offence.slashFraction, [offence]⟩

/-- `add_offence`. -/
def addOffence (self : ValidatorOffenceInfo) (offence : Offence) : ValidatorOffenceInfo where
  latestOffenceRoundIndex := offence.roundIndex
  latestOffenceSessionIndex := offence.sessionIndex
  offenceCount := self.offenceCount + 1
  aggregatedSlashFraction :=
    .fromParts (self.aggregatedSlashFraction.parts + offence.slashFraction.parts)
  offences := self.offences ++ [offence]

end ValidatorOffenceInfo

/-- The storage of `bfc-offences`. -/
structure Offences (AccountId : Type) where
  validatorOffences : StorageMap AccountId ValidatorOffenceInfo
  isOffenceActive : Bool
  isSlashActive : Bool
  offenceExpirationInSessions : ℕ
  fullMaximumOffenceCount : ℕ
  basicMaximumOffenceCount : ℕ

namespace Offences

/-- `is_offence_count_exceeds`. -/
def isOffenceCountExceeds (self : Offences AccountId) (count : ℕ) (tier : TierType) : Bool :=
  if tier = .full then self.fullMaximumOffenceCount < count
  else self.basicMaximumOffenceCount < count

/-- `try_slash`: the slashed amount and the currency after the slash. -/
def trySlash (self : Offences AccountId) (currency : Currency AccountId) (stash : AccountId)
    (slashFraction : Perbill) (bond : ℕ) : ℕ × Currency AccountId :=
  if self.isSlashActive then
    (slashFraction.mul bond, currency.slashReserved stash (slashFraction.mul bond))
  else (0, currency)

/-- `handle_offence`: whether the validator is slashed, and by how much. -/
def handleOffence (self : Offences AccountId) (currency : Currency AccountId)
    (who stash : AccountId) (tier : TierType) (offence : Offence) :
    (Bool × ℕ) × Offences AccountId × Currency AccountId :=
  match self.validatorOffences.get who with
  | some offences =>
      if self.isOffenceCountExceeds (offences.offenceCount + 1) tier then
        let (slashAmount, currency) :=
          self.trySlash currency stash offences.aggregatedSlashFraction offence.selfBond
        ((true, slashAmount),
          { self with validatorOffences := self.validatorOffences.remove who }, currency)
      else
        ((false, 0),
          { self with validatorOffences :=
              self.validatorOffences.insert who (offences.addOffence offence) }, currency)
  | none =>
      ((false, 0),
        { self with validatorOffences := self.validatorOffences.insert who (.new offence) },
        currency)

/-- `try_handle_offence`. -/
def tryHandleOffence (self : Offences AccountId) (currency : Currency AccountId)
    (who stash : AccountId) (tier : TierType) (offence : Offence) :
    (Bool × ℕ) × Offences AccountId × Currency AccountId :=
  if self.isOffenceActive then self.handleOffence currency who stash tier offence
  else ((false, 0), self, currency)

/-- `refresh_offences`.  The subtraction is unchecked. -/
def refreshOffences (self : Offences AccountId) (sessionIndex : ℕ) : Offences AccountId :=
  { self with
    validatorOffences := (StorageMap.ascending self.validatorOffences.keys).foldl (fun m who =>
      match m.get who with
      | some info =>
          if self.offenceExpirationInSessions <
              wrappingSubU32 sessionIndex info.latestOffenceSessionIndex then
            m.remove who
          else m
      | none => m) self.validatorOffences }

end Offences

/-! ## The record -/

/-- The selected candidates of the current round, and what is derived from them. -/
structure Selection (AccountId : Type) where
  selectedCandidates : Finset AccountId
  selectedFullCandidates : Finset AccountId
  selectedBasicCandidates : Finset AccountId
  cachedSelectedCandidates : StorageMap ℕ (Finset AccountId)
  majority : ℕ
  cachedMajority : StorageMap ℕ ℕ
  productivityPerBlock : Perbill

/-- What rewards are computed from.  `Points`, `AwardedPts`, `AtStake` and `Staked` are value
queries: an absent key reads as the default. -/
structure Rewards (AccountId : Type) where
  points : StorageMap ℕ ℕ
  awardedPts : StorageMap (ℕ × AccountId) ℕ
  atStake : StorageMap (ℕ × AccountId) (ValidatorSnapshot AccountId)
  totalAtStake : StorageMap ℕ TotalSnapshot
  delayedPayouts : StorageMap ℕ DelayedPayout
  staked : StorageMap ℕ ℕ

/-- The parameters that calls can set. -/
structure Params where
  maxTotalSelected : ℕ
  maxFullSelected : ℕ
  maxBasicSelected : ℕ
  storageCacheLifetime : ℕ
  inflationConfig : InflationInfo
  defaultFullValidatorCommission : Perbill
  defaultBasicValidatorCommission : Perbill
  maxFullValidatorCommission : Perbill
  maxBasicValidatorCommission : Perbill

structure State (AccountId R : Type) where
  ledger : Ledger AccountId
  selection : Selection AccountId
  rewards : Rewards AccountId
  params : Params
  round : RoundInfo
  session : ℕ
  delayedControllerSets : StorageMap ℕ (List (DelayedControllerSet AccountId))
  delayedCommissionSets : StorageMap ℕ (List (DelayedCommissionSet AccountId))
  offences : Offences AccountId
  relay : R

namespace State

/-- The current round index. -/
def now (s : State AccountId R) : ℕ := s.round.currentRoundIndex

/-- The controller changes requested in the current round. -/
def controllerSets (s : State AccountId R) : List (DelayedControllerSet AccountId) :=
  s.delayedControllerSets.getD s.now []

/-- The commission changes requested in the current round. -/
def commissionSets (s : State AccountId R) : List (DelayedCommissionSet AccountId) :=
  s.delayedCommissionSets.getD s.now []

/-- `is_controller_set_requested`. -/
def isControllerSetRequested (s : State AccountId R) (controller : AccountId) : Bool :=
  s.controllerSets.any fun c => c.old = controller

/-- `is_commission_set_requested`. -/
def isCommissionSetRequested (s : State AccountId R) (who : AccountId) : Bool :=
  s.commissionSets.any fun c => c.who = who

/-- Run a ledger operation. -/
def withLedger (s : State AccountId R) (l : Ledger AccountId) : State AccountId R :=
  { s with ledger := l }

/-- Overwrite the metadata of one candidate. -/
def putCandidate (s : State AccountId R) (controller : AccountId)
    (state : CandidateMetadata AccountId) : State AccountId R :=
  s.withLedger { s.ledger with candidateInfo := s.ledger.candidateInfo.insert controller state }

end State

/-- `ensure_signed`. -/
def ensureSigned : Origin AccountId → Except Error AccountId
  | .signed who => .ok who
  | _ => .error .badOrigin

/-- `ensure_root`. -/
def ensureRoot : Origin AccountId → Except Error Unit
  | .root => .ok ()
  | _ => .error .badOrigin

/-! ## Selected sets -/

namespace Selection

/-- `compute_majority`. -/
def computeMajority (self : Selection AccountId) : ℕ := self.selectedCandidates.card / 2 + 1

/-- `add_to_selected_candidates`. -/
def addToSelectedCandidates (self : Selection AccountId) (candidate : AccountId)
    (tier : TierType) : Selection AccountId :=
  let self := { self with selectedCandidates := insert candidate self.selectedCandidates }
  if tier = .full then
    { self with selectedFullCandidates := insert candidate self.selectedFullCandidates }
  else { self with selectedBasicCandidates := insert candidate self.selectedBasicCandidates }

/-- `remove_from_selected_candidates`. -/
def removeFromSelectedCandidates (self : Selection AccountId) (candidate : AccountId)
    (tier : TierType) : Selection AccountId :=
  let self := { self with selectedCandidates := self.selectedCandidates.erase candidate }
  if tier = .full then
    { self with selectedFullCandidates := self.selectedFullCandidates.erase candidate }
  else { self with selectedBasicCandidates := self.selectedBasicCandidates.erase candidate }

/-- `refresh_latest_cached_selected_candidates`. -/
def refreshLatestCachedSelectedCandidates (self : Selection AccountId) (now : ℕ) :
    Selection AccountId :=
  { self with
    cachedSelectedCandidates := self.cachedSelectedCandidates.insert now self.selectedCandidates }

/-- `replace_from_selected_candidates`. -/
def replaceFromSelectedCandidates (self : Selection AccountId) (now : ℕ) (old new : AccountId)
    (tier : TierType) : Selection AccountId :=
  ((self.removeFromSelectedCandidates old tier).addToSelectedCandidates new
    tier).refreshLatestCachedSelectedCandidates now

/-- `BTreeMap::pop_first` when the cache is full. -/
def popFirst {V : Type} (cache : StorageMap ℕ V) (lifetime : ℕ) : StorageMap ℕ V :=
  if lifetime ≤ cache.keys.card then
    match StorageMap.ascending cache.keys with
    | first :: _ => cache.remove first
    | [] => cache
  else cache

/-- `refresh_cached_selected_candidates`. -/
def refreshCachedSelectedCandidates (self : Selection AccountId) (lifetime now : ℕ)
    (validators : Finset AccountId) : Selection AccountId :=
  { self with
    cachedSelectedCandidates :=
      (popFirst self.cachedSelectedCandidates lifetime).insert now validators }

/-- `refresh_latest_cached_majority`. -/
def refreshLatestCachedMajority (self : Selection AccountId) (now : ℕ) : Selection AccountId :=
  { self with cachedMajority := self.cachedMajority.insert now self.majority }

/-- `refresh_majority`. -/
def refreshMajority (self : Selection AccountId) (lifetime now : ℕ) : Selection AccountId :=
  { self with
    cachedMajority := (popFirst self.cachedMajority lifetime).insert now self.computeMajority
    majority := self.computeMajority }

end Selection

end BifrostNode.Staking
