import BifrostNode.Staking.State

/-!
# What candidates and governance do

The dispatchables of candidates, called by the controller or by the stash account, and those of
governance.  As for nominators, a failing call leaves no trace.
-/

namespace BifrostNode.Staking

variable {AccountId R : Type} [LinearOrder AccountId]

/-! ## Stake -/

namespace Ledger

/-- The controller of a stash account and its metadata. -/
def bonded (l : Ledger AccountId) (stash : AccountId) :
    Except Error (AccountId × CandidateMetadata AccountId) := do
  let controller ← okOr (l.bondedStash.get stash) .stashDNE
  let state ← okOr (l.candidateInfo.get controller) .candidateDNE
  return (controller, state)

/-- Rewrite the metadata of the calling controller. -/
def updateCandidate (l : Ledger AccountId) (controller : AccountId)
    (f : CandidateMetadata AccountId → Except Error (CandidateMetadata AccountId)) :
    Except Error (Ledger AccountId) := do
  let state ← okOr (l.candidateInfo.get controller) .candidateDNE
  let state ← f state
  return { l with candidateInfo := l.candidateInfo.insert controller state }

/-- `candidate_bond_more`. -/
def candidateBondMore (l : Ledger AccountId) (stash : AccountId) (more : ℕ) :
    Except Error (Ledger AccountId) := do
  let (controller, state) ← l.bonded stash
  ensure (l.currency.canReserve stash more) .insufficientBalance
  let (state, l) ← state.bondMore l stash more
  let l := { l with candidateInfo := l.candidateInfo.insert controller state }
  return l.updateActive controller state.votingPower

/-- `schedule_candidate_bond_less`. -/
def scheduleCandidateBondLess (cfg : Config AccountId) (l : Ledger AccountId) (now : ℕ)
    (controller : AccountId) (less : ℕ) : Except Error (Ledger AccountId) :=
  l.updateCandidate controller fun state => do
    ensure (!state.isLeaving) .candidateAlreadyLeaving
    state.scheduleBondLess cfg now less

/-- `execute_candidate_bond_less`. -/
def executeCandidateBondLess (l : Ledger AccountId) (now : ℕ) (stash : AccountId) :
    Except Error (Ledger AccountId) := do
  let (controller, state) ← l.bonded stash
  let (state, l) ← state.executeBondLess l now stash controller
  return { l with candidateInfo := l.candidateInfo.insert controller state }

/-- `cancel_candidate_bond_less`. -/
def cancelCandidateBondLess (l : Ledger AccountId) (controller : AccountId) :
    Except Error (Ledger AccountId) :=
  l.updateCandidate controller fun state => state.cancelBondLess

/-- `set_candidate_reward_dst`. -/
def setCandidateRewardDst (l : Ledger AccountId) (controller : AccountId)
    (newRewardDst : RewardDestination) : Except Error (Ledger AccountId) :=
  l.updateCandidate controller fun state => do
    ensure (state.rewardDst ≠ newRewardDst) .noWritingSameValue
    return { state with rewardDst := newRewardDst }

/-- The insertion into the bounded `CandidatePool`. -/
def tryInsertPool (l : Ledger AccountId) (controller : AccountId) (amount : ℕ) :
    Except Error (Ledger AccountId) := do
  ensure ((l.candidatePool.get controller).isSome ∨ l.candidatePool.keys.card < maxAuthorities)
    .tooManyCandidates
  return { l with candidatePool := l.candidatePool.insert controller amount }

/-- The writes of `join_candidates` after the reserve. -/
def join (l : Ledger AccountId) (stash controller : AccountId)
    (candidate : CandidateMetadata AccountId) : Except Error (Ledger AccountId) := do
  let l := { l with
    candidateInfo := l.candidateInfo.insert controller candidate
    bondedStash := l.bondedStash.insert stash controller
    topNominations := l.topNominations.insert controller .default
    bottomNominations := l.bottomNominations.insert controller .default }
  let l ← l.tryInsertPool controller candidate.bond
  return { l with total := l.total + candidate.bond }

/-- The closure `return_stake` of `execute_leave_candidates`, with the lookup in front of it. -/
def returnStake (controller : AccountId) (l : Ledger AccountId) (bond : Bond AccountId) :
    Except Error (Ledger AccountId) := do
  let nominator ← okOr (l.nominatorState.get bond.owner) .nominatorDNE
  let l := { l with currency := l.currency.unreserve bond.owner bond.amount }
  match nominator.rmNomination controller with
  | none => return l
  | some (remaining, _) =>
      if remaining = 0 then
        return { l with nominatorState := l.nominatorState.remove bond.owner }
      else
        return { l with
          nominatorState :=
            l.nominatorState.insert bond.owner (nominator.dropNomination controller) }

/-- The stake part of `execute_leave_candidates`: the cached totals are what leaves the total. -/
def executeLeave (l : Ledger AccountId) (stash controller : AccountId)
    (state : CandidateMetadata AccountId) : Except Error (Ledger AccountId) := do
  let topNominations ← okOr (l.topNominations.get controller) .topNominationDNE
  let l := { l with topNominations := l.topNominations.remove controller }
  let l ← topNominations.nominations.foldlM (returnStake controller) l
  let bottomNominations ← okOr (l.bottomNominations.get controller) .bottomNominationDNE
  let l := { l with bottomNominations := l.bottomNominations.remove controller }
  let l ← bottomNominations.nominations.foldlM (returnStake controller) l
  let totalBacking := state.bond + topNominations.total + bottomNominations.total
  return { l with
    currency := l.currency.unreserve stash state.bond
    candidateInfo := l.candidateInfo.remove controller
    bondedStash := l.bondedStash.remove stash
    topNominations := l.topNominations.remove controller
    bottomNominations := l.bottomNominations.remove controller
    total := l.total - totalBacking }

end Ledger

/-! ## Candidates -/

namespace State

/-- The relay manager after a full node has joined it; a basic node does not. -/
def joinedRelay (rm : RelayManager AccountId R) (relay : R) (relayer : Option AccountId)
    (controller : AccountId) : Except Error R :=
  match relayer with
  | some relayer => rm.joinRelayers relay relayer controller
  | none => pure relay

/-- `join_candidates`. -/
def joinCandidates (cfg : Config AccountId) (rm : RelayManager AccountId R)
    (s : State AccountId R) (stash controller : AccountId) (relayer : Option AccountId)
    (bond candidateCount : ℕ) : Except Error (State AccountId R) := do
  ensure (s.ledger.bondedStash.get stash).isNone .alreadyBonded
  ensure (s.ledger.candidateInfo.get controller).isNone .alreadyPaired
  ensure (!s.controllerSets.any fun c => c.new = controller) .alreadyControllerSetRequested
  ensure (!s.ledger.isNominator controller) .nominatorExists
  ensure (s.ledger.candidatePool.keys.card ≤ candidateCount)
    .tooLowCandidateCountWeightHintJoinCandidates
  ensure (s.ledger.currency.canReserve stash bond) .insufficientBalance
  let tier : TierType := if relayer.isSome then .full else .basic
  ensure (CandidateMetadata.minCandidateStk cfg tier ≤ bond) .candidateBondBelowMin
  let currency ← s.ledger.currency.reserve stash bond
  let relay ← joinedRelay rm s.relay relayer controller
  let candidate := CandidateMetadata.new s.params.defaultFullValidatorCommission
    s.params.defaultBasicValidatorCommission stash bond tier
  let l ← { s.ledger with currency := currency }.join stash controller candidate
  return { s with ledger := l, relay := relay }

/-- `schedule_leave_candidates`. -/
def scheduleLeaveCandidates (cfg : Config AccountId) (s : State AccountId R)
    (controller : AccountId) (candidateCount : ℕ) : Except Error (State AccountId R) := do
  let state ← okOr (s.ledger.candidateInfo.get controller) .candidateDNE
  ensure (!s.isControllerSetRequested controller) .cannotLeaveIfControllerSetRequested
  ensure (!s.isCommissionSetRequested controller) .cannotLeaveIfCommissionSetRequested
  ensure (s.ledger.candidatePool.keys.card ≤ candidateCount)
    .tooLowCandidateCountToLeaveCandidates
  let (removed, l) := s.ledger.removeFromCandidatePool controller
  ensure removed .cannotLeaveIfOffline
  let state ← state.scheduleLeave cfg s.now
  return (s.withLedger l).putCandidate controller state

/-- `execute_leave_candidates`. -/
def executeLeaveCandidates (rm : RelayManager AccountId R) (s : State AccountId R)
    (stash : AccountId) (candidateNominationCount : ℕ) : Except Error (State AccountId R) := do
  let (controller, state) ← s.ledger.bonded stash
  ensure (state.nominationCount ≤ candidateNominationCount)
    .tooLowCandidateNominationCountToLeaveCandidates
  state.canLeave s.now
  let l ← s.ledger.executeLeave stash controller state
  return { s with ledger := l, relay := rm.leaveRelayers s.relay controller }

/-- `cancel_leave_candidates`. -/
def cancelLeaveCandidates (s : State AccountId R) (controller : AccountId)
    (candidateCount : ℕ) : Except Error (State AccountId R) := do
  let state ← okOr (s.ledger.candidateInfo.get controller) .candidateDNE
  ensure state.isLeaving .candidateNotLeaving
  let state := state.goOnline
  ensure (s.ledger.candidatePool.keys.card ≤ candidateCount)
    .tooLowCandidateCountWeightHintCancelLeaveCandidates
  let l ← s.ledger.tryInsertPool controller state.votingPower
  return (s.withLedger l).putCandidate controller state

/-- `set_controller`, with `add_to_controller_sets`. -/
def setController (s : State AccountId R) (stash new : AccountId) :
    Except Error (State AccountId R) := do
  let (old, state) ← s.ledger.bonded stash
  ensure (new ≠ old) .noWritingSameValue
  ensure (!s.ledger.isCandidate new) .alreadyPaired
  ensure (!state.isLeaving) .candidateAlreadyLeaving
  ensure (!s.isControllerSetRequested old) .alreadyControllerSetRequested
  ensure (!s.controllerSets.any fun c => c.old = old ∨ c.new = new) .alreadyControllerSetRequested
  ensure (s.controllerSets.length < maxAuthorities) .tooManyDelayedControllers
  return { s with
    delayedControllerSets :=
      s.delayedControllerSets.insert s.now (s.controllerSets ++ [⟨stash, old, new⟩]) }

/-- `cancel_controller_set`, with `remove_controller_set`. -/
def cancelControllerSet (s : State AccountId R) (controller : AccountId) :
    Except Error (State AccountId R) := do
  ensure (s.ledger.isCandidate controller) .candidateDNE
  ensure (s.isControllerSetRequested controller) .controllerSetDNE
  return { s with
    delayedControllerSets :=
      s.delayedControllerSets.insert s.now (s.controllerSets.filter fun c => c.old ≠ controller) }

/-- `set_validator_commission`, with `add_to_commission_sets`. -/
def setValidatorCommission (s : State AccountId R) (controller : AccountId) (new : Perbill) :
    Except Error (State AccountId R) := do
  let state ← okOr (s.ledger.candidateInfo.get controller) .candidateDNE
  ensure (state.commission ≠ new) .noWritingSameValue
  let max := if state.tier = .full then s.params.maxFullValidatorCommission
    else s.params.maxBasicValidatorCommission
  ensure (new.parts ≤ max.parts) .cannotSetAboveMax
  ensure (!s.isCommissionSetRequested controller) .alreadyCommissionSetRequested
  ensure (!state.isLeaving) .candidateAlreadyLeaving
  ensure (s.commissionSets.length < maxAuthorities) .tooManyDelayedCommissions
  return { s with
    delayedCommissionSets := s.delayedCommissionSets.insert s.now
      (s.commissionSets ++ [⟨controller, state.commission, new⟩]) }

/-- `cancel_validator_commission_set`, with `remove_commission_set`. -/
def cancelValidatorCommissionSet (s : State AccountId R) (controller : AccountId) :
    Except Error (State AccountId R) := do
  ensure (s.ledger.isCandidate controller) .candidateDNE
  ensure (s.isCommissionSetRequested controller) .commissionSetDNE
  return { s with
    delayedCommissionSets :=
      s.delayedCommissionSets.insert s.now (s.commissionSets.filter fun c => c.who ≠ controller) }

/-- `reset_commission`: pending changes of the candidate are dropped. -/
def resetCommission (s : State AccountId R) (who : AccountId)
    (state : CandidateMetadata AccountId) : CandidateMetadata AccountId × State AccountId R :=
  ({ state with
      commission :=
        if state.tier = .full then s.params.defaultFullValidatorCommission
        else s.params.defaultBasicValidatorCommission },
    { s with
      delayedCommissionSets :=
        s.delayedCommissionSets.insert s.now (s.commissionSets.filter fun c => c.who ≠ who) })

/-- The two branches of `set_validator_tier`: becoming a full node needs a relayer. -/
def bondForTier (cfg : Config AccountId) (rm : RelayManager AccountId R) (s : State AccountId R)
    (stash controller : AccountId) (state : CandidateMetadata AccountId) (more : ℕ)
    (new : TierType) : Option AccountId →
      Except Error ((CandidateMetadata AccountId × Ledger AccountId) × R)
  | some relayer => do
      ensure (new = .full) .invalidTierType
      ensure (cfg.minFullCandidateStk ≤ state.bond + more) .candidateBondBelowMin
      ensure (s.ledger.currency.canReserve stash more) .insufficientBalance
      let bonded ← state.bondMore s.ledger stash more
      let relay ← rm.joinRelayers s.relay relayer controller
      return (bonded, relay)
  | none => do
      ensure (new = .basic) .invalidTierType
      ensure (cfg.minBasicCandidateStk ≤ state.bond + more) .candidateBondBelowMin
      let bonded ← state.bondMore s.ledger stash more
      return (bonded, rm.leaveRelayers s.relay controller)

/-- `set_validator_tier`. -/
def setValidatorTier (cfg : Config AccountId) (rm : RelayManager AccountId R)
    (s : State AccountId R) (stash : AccountId) (more : ℕ) (new : TierType)
    (relayer : Option AccountId) : Except Error (State AccountId R) := do
  let (controller, state) ← s.ledger.bonded stash
  ensure (state.tier ≠ new) .noWritingSameValue
  let ((state, l), relay) ← s.bondForTier cfg rm stash controller state more new relayer
  let (state, s) := { s with ledger := l, relay := relay }.resetCommission controller
    { state with tier := new }
  let s := s.putCandidate controller state
  return s.withLedger (s.ledger.updateActive controller state.votingPower)

/-- `go_offline`.  The majority is computed before the selected set is written. -/
def goOffline (rm : RelayManager AccountId R) (s : State AccountId R) (controller : AccountId) :
    Except Error (State AccountId R) := do
  let state ← okOr (s.ledger.candidateInfo.get controller) .candidateDNE
  ensure state.isActive .alreadyOffline
  let (removed, l) := s.ledger.removeFromCandidatePool controller
  ensure removed .alreadyOffline
  let selectedCandidates := s.selection.selectedCandidates.erase controller
  let sel := s.selection.refreshCachedSelectedCandidates s.params.storageCacheLifetime s.now
    selectedCandidates
  let majority := sel.computeMajority
  let sel := { sel with
    majority := majority
    cachedMajority := sel.cachedMajority.insert s.now majority }
  let relay := if state.tier = .full then rm.kickoutRelayer s.relay controller else s.relay
  let sel := sel.removeFromSelectedCandidates controller state.tier
  return { s with ledger := l, selection := sel, relay := relay }.putCandidate controller
    state.goOffline

/-- `go_online`. -/
def goOnline (s : State AccountId R) (controller : AccountId) :
    Except Error (State AccountId R) := do
  let state ← okOr (s.ledger.candidateInfo.get controller) .candidateDNE
  ensure (!state.isActive) .alreadyActive
  ensure (!state.isLeaving) .cannotGoOnlineIfLeaving
  let state := state.goOnline
  let l ← s.ledger.tryInsertPool controller state.votingPower
  return (s.withLedger l).putCandidate controller state

/-! ## Governance -/

/-- Change the parameters. -/
def withParams (s : State AccountId R) (p : Params) : State AccountId R := { s with params := p }

/-- `inflation::BLOCKS_PER_YEAR`. -/
def blocksPerYear : ℕ := 31557600 / 3

/-- `set_staking_expectations`. -/
def setStakingExpectations (cfg : Config AccountId) (s : State AccountId R)
    (origin : Origin AccountId) (expectations : Range ℕ) : Except Error (State AccountId R) := do
  ensure (cfg.monetaryGovernanceOrigin origin) .badOrigin
  ensure expectations.isValid .invalidSchedule
  ensure (s.params.inflationConfig.expect ≠ expectations) .noWritingSameValue
  return s.withParams { s.params with
    inflationConfig := { s.params.inflationConfig with expect := expectations } }

/-- `set_inflation`. -/
def setInflation (cfg : Config AccountId) (s : State AccountId R) (origin : Origin AccountId)
    (schedule : Range Perbill) : Except Error (State AccountId R) := do
  ensure (cfg.monetaryGovernanceOrigin origin) .badOrigin
  ensure schedule.isValidRate .invalidSchedule
  ensure ((Perbill.fromPercent 1).parts ≤ schedule.min.parts) .invalidSchedule
  ensure (s.params.inflationConfig.annual ≠ schedule) .noWritingSameValue
  return s.withParams { s.params with
    inflationConfig := { s.params.inflationConfig with
      annual := schedule
      round := cfg.perbillAnnualToPerbillRound schedule (blocksPerYear / s.round.roundLength) } }

/-- `set_max_full_selected`: the new maximum alone is compared with the round length. -/
def setMaxFullSelected (s : State AccountId R) (origin : Origin AccountId) (new : ℕ) :
    Except Error (State AccountId R) := do
  ensureRoot origin
  ensure (1 ≤ new) .cannotSetBelowMin
  ensure (s.params.maxFullSelected ≠ new) .noWritingSameValue
  ensure (new ≤ s.round.roundLength) .roundLengthMustBeAtLeastTotalSelectedValidators
  return s.withParams { s.params with
    maxFullSelected := new
    maxTotalSelected := new + s.params.maxBasicSelected }

/-- `set_max_basic_selected`. -/
def setMaxBasicSelected (s : State AccountId R) (origin : Origin AccountId) (new : ℕ) :
    Except Error (State AccountId R) := do
  ensureRoot origin
  ensure (1 ≤ new) .cannotSetBelowMin
  ensure (s.params.maxBasicSelected ≠ new) .noWritingSameValue
  ensure (new ≤ s.round.roundLength) .roundLengthMustBeAtLeastTotalSelectedValidators
  return s.withParams { s.params with
    maxBasicSelected := new
    maxTotalSelected := new + s.params.maxFullSelected }

/-- `set_default_validator_commission`. -/
def setDefaultValidatorCommission (s : State AccountId R) (origin : Origin AccountId)
    (new : Perbill) (tier : TierType) : Except Error (State AccountId R) := do
  ensureRoot origin
  let p := s.params
  if tier ≠ .basic then
    ensure (p.defaultFullValidatorCommission ≠ new) .noWritingSameValue
    ensure (new.parts ≤ p.maxFullValidatorCommission.parts) .cannotSetAboveMax
  if tier ≠ .full then
    ensure (p.defaultBasicValidatorCommission ≠ new) .noWritingSameValue
    ensure (new.parts ≤ p.maxBasicValidatorCommission.parts) .cannotSetAboveMax
  return s.withParams { p with
    defaultFullValidatorCommission :=
      if tier = .basic then p.defaultFullValidatorCommission else new
    defaultBasicValidatorCommission :=
      if tier = .full then p.defaultBasicValidatorCommission else new }

/-- `set_max_validator_commission`. -/
def setMaxValidatorCommission (s : State AccountId R) (origin : Origin AccountId)
    (new : Perbill) (tier : TierType) : Except Error (State AccountId R) := do
  ensureRoot origin
  let p := s.params
  if tier ≠ .basic then
    ensure (p.maxFullValidatorCommission ≠ new) .noWritingSameValue
  if tier ≠ .full then
    ensure (p.maxBasicValidatorCommission ≠ new) .noWritingSameValue
  return s.withParams { p with
    maxFullValidatorCommission := if tier = .basic then p.maxFullValidatorCommission else new
    maxBasicValidatorCommission := if tier = .full then p.maxBasicValidatorCommission else new }

/-- `set_blocks_per_round`. -/
def setBlocksPerRound (cfg : Config AccountId) (s : State AccountId R)
    (origin : Origin AccountId) (new : ℕ) : Except Error (State AccountId R) := do
  ensureRoot origin
  ensure (cfg.minBlocksPerRound ≤ new) .cannotSetBelowMin
  ensure (new ≤ cfg.maxBlocksPerRound) .cannotSetAboveMax
  ensure (s.round.roundLength ≠ new) .noWritingSameValue
  ensure (wrappingSubU32 s.round.currentBlock s.round.firstRoundBlock < new)
    .roundLengthMustBeLongerThanCreatedBlocks
  ensure (s.params.maxTotalSelected ≤ new) .roundLengthMustBeAtLeastTotalSelectedValidators
  return { s with
    round := { s.round with roundLength := new }
    params := { s.params with
      inflationConfig := { s.params.inflationConfig with
        round := cfg.perbillAnnualToPerbillRound s.params.inflationConfig.annual
          (blocksPerYear / new) } } }

/-- `set_storage_cache_lifetime`. -/
def setStorageCacheLifetime (s : State AccountId R) (origin : Origin AccountId) (new : ℕ) :
    Except Error (State AccountId R) := do
  ensureRoot origin
  ensure (1 ≤ new) .cannotSetBelowOne
  ensure (s.params.storageCacheLifetime ≠ new) .noWritingSameValue
  return s.withParams { s.params with storageCacheLifetime := new }

end State

end BifrostNode.Staking
