import BifrostNode.Staking.Payouts

/-!
# Sessions, rounds, offences and genesis

What runs without being called: the end of a session and of a round, the block author, offences,
and the construction of the first state.  As in the payouts, `none` is a panic.

What the hooks read from other pallets is passed in: the block number, the validators of the
current session, and which accounts have session keys.
-/

namespace BifrostNode.Staking

variable {AccountId R : Type} [LinearOrder AccountId]

/-! ## Rounds as numbers -/

namespace RoundInfo

/-- `should_update`; the subtraction is unchecked. -/
def shouldUpdate (self : RoundInfo) (now : ℕ) : Bool :=
  self.roundLength ≤ wrappingSubU32 now self.firstRoundBlock

/-- `update_round`; `session` is the stored session index. -/
def updateRound (self : RoundInfo) (session now : ℕ) : RoundInfo :=
  { self with
    currentRoundIndex := self.currentRoundIndex + 1
    firstSessionIndex := session
    currentSessionIndex := session
    firstRoundBlock := now
    firstSessionBlock := now
    currentBlock := now }

def updateSession (self : RoundInfo) (now newSession : ℕ) : RoundInfo :=
  { self with currentSessionIndex := newSession, firstSessionBlock := now }

def updateBlock (self : RoundInfo) (now : ℕ) : RoundInfo := { self with currentBlock := now }

end RoundInfo

/-! ## Candidates -/

namespace Ledger

/-- Rewrite the metadata of a candidate that exists. -/
def modifyCandidate (l : Ledger AccountId) (candidate : AccountId)
    (f : CandidateMetadata AccountId → CandidateMetadata AccountId) : Ledger AccountId :=
  match l.candidateInfo.get candidate with
  | none => l
  | some state => { l with candidateInfo := l.candidateInfo.insert candidate (f state) }

/-- `get_sorted_candidates`. -/
def getSortedCandidates (l : Ledger AccountId) : List (Bond AccountId) :=
  RankedList.sortDesc Bond.amount (l.candidatePool.toList.map fun p => ⟨p.1, p.2⟩)

/-- The candidates of the pool, in that order, that are of one kind and have enough self-bond. -/
def qualified (cfg : Config AccountId) (l : Ledger AccountId) (full : Bool) :
    List (Bond AccountId) :=
  l.getSortedCandidates.filter fun candidate =>
    match l.candidateInfo.get candidate.owner with
    | none => false
    | some state =>
        decide (state.tier = .full) == full &&
          decide (CandidateMetadata.minCandidateStk cfg state.tier ≤ state.bond)

/-- `get_top_n_candidates`. -/
def getTopNCandidates (candidates : List (Bond AccountId)) (topN minStake : ℕ) : List AccountId :=
  (((candidates.filter fun x => minStake ≤ x.amount).take topN).map Bond.owner).insertionSort
    (· ≤ ·)

/-- `replace_nominator_nominations`. -/
def replaceNominatorNominations (l : Ledger AccountId) (nominators : List AccountId)
    (old new : AccountId) : Ledger AccountId :=
  nominators.foldl (fun l n =>
    match l.nominatorState.get n with
    | none => l
    | some nominator =>
        { l with
          nominatorState := l.nominatorState.insert n
            ((nominator.replaceNominations old new).replaceRequests old new) }) l

/-- The ledger part of one controller change. -/
def replaceController (l : Ledger AccountId) (c : DelayedControllerSet AccountId)
    (candidate : CandidateMetadata AccountId) : Ledger AccountId :=
  let l := { l with
    candidateInfo := (l.candidateInfo.remove c.old).insert c.new candidate
    bondedStash := l.bondedStash.insert c.stash c.new
    candidatePool := l.candidatePool.moveKey c.old c.new id }
  let l := match l.topNominations.get c.old with
    | none => l
    | some top =>
        let l := l.replaceNominatorNominations top.nominators c.old c.new
        { l with topNominations := (l.topNominations.remove c.old).insert c.new top }
  match l.bottomNominations.get c.old with
  | none => l
  | some bottom =>
      let l := l.replaceNominatorNominations bottom.nominators c.old c.new
      { l with bottomNominations := (l.bottomNominations.remove c.old).insert c.new bottom }

/-- `reset_candidate_states`. -/
def resetCandidateStates (l : Ledger AccountId) : Ledger AccountId :=
  { l with
    candidateInfo := l.candidateInfo.mapVals fun state =>
      state.resetBlocksProduced.resetProductivity.setIsSelected false }

/-- `compute_productivity`. -/
def computeProductivity (l : Ledger AccountId) (productivityPerBlock : Perbill)
    (sessionValidators : List AccountId) : Ledger AccountId :=
  sessionValidators.foldl (fun l validator => l.modifyCandidate validator fun state =>
    if state.productivityStatus = .idle then state.decrementProductivity productivityPerBlock
    else state) l

end Ledger

/-! ## Snapshots -/

/-- One candidate's contribution to the snapshot of `refresh_total_snapshot`. -/
def TotalSnapshot.addCandidate (self : TotalSnapshot) (selected : Bool)
    (state : CandidateMetadata AccountId) (top bottom : Nominations AccountId) : TotalSnapshot where
  totalSelfBond := self.totalSelfBond + state.bond
  activeSelfBond := self.activeSelfBond + if selected then state.bond else 0
  totalNominations := self.totalNominations + (top.total + bottom.total)
  totalTopNominations := self.totalTopNominations + top.total
  totalBottomNominations := self.totalBottomNominations + bottom.total
  activeNominations := self.activeNominations + if selected then top.total + bottom.total else 0
  activeTopNominations := self.activeTopNominations + if selected then top.total else 0
  activeBottomNominations := self.activeBottomNominations + if selected then bottom.total else 0
  totalNominators := self.totalNominators + (top.count + bottom.count)
  totalTopNominators := self.totalTopNominators + top.count
  totalBottomNominators := self.totalBottomNominators + bottom.count
  activeNominators := self.activeNominators + if selected then top.count + bottom.count else 0
  activeTopNominators := self.activeTopNominators + if selected then top.count else 0
  activeBottomNominators := self.activeBottomNominators + if selected then bottom.count else 0
  totalStake := self.totalStake + (state.bond + top.total + bottom.total)
  activeStake := self.activeStake + if selected then state.bond + top.total + bottom.total else 0
  totalVotingPower := self.totalVotingPower + state.votingPower
  activeVotingPower := self.activeVotingPower + if selected then state.votingPower else 0

namespace State

/-- One iteration of `refresh_total_snapshot`; the candidate must have both lists. -/
def snapshotCandidate (s : State AccountId R) (snapshot : TotalSnapshot)
    (entry : AccountId × CandidateMetadata AccountId) : Option TotalSnapshot := do
  let top ← s.ledger.topNominations.get entry.1
  let bottom ← s.ledger.bottomNominations.get entry.1
  return snapshot.addCandidate (decide (entry.1 ∈ s.selection.selectedCandidates)) entry.2 top
    bottom

/-- The snapshot that `refresh_total_snapshot` computes. -/
def totalSnapshot (s : State AccountId R) : Option TotalSnapshot :=
  s.ledger.candidateInfo.toList.foldlM s.snapshotCandidate TotalSnapshot.default

/-- `refresh_total_snapshot`. -/
def refreshTotalSnapshot (s : State AccountId R) (now : ℕ) : Option (State AccountId R) :=
  s.totalSnapshot.map fun snapshot =>
    { s with rewards := { s.rewards with
        totalAtStake := s.rewards.totalAtStake.insert now snapshot } }

/-- The snapshot of one selected candidate, which is marked as selected. -/
def selectCandidate (s : State AccountId R) (now : ℕ) (validator : AccountId)
    (state : CandidateMetadata AccountId) (top : Nominations AccountId) : State AccountId R :=
  { s with
    rewards := { s.rewards with
      atStake := s.rewards.atStake.insert (now, validator)
        ⟨state.bond, top.nominations, state.votingPower⟩ } }.putCandidate validator
    (state.setIsSelected true)

/-- One iteration of `collect_validator_snapshot`, with the three counters. -/
def countSnapshot (now : ℕ) (acc : (ℕ × ℕ × ℕ) × State AccountId R) (validator : AccountId) :
    Option ((ℕ × ℕ × ℕ) × State AccountId R) := do
  let state ← acc.2.ledger.candidateInfo.get validator
  let top ← acc.2.ledger.topNominations.get validator
  return ((acc.1.1 + 1, acc.1.2.1 + state.nominationCount, acc.1.2.2 + state.votingPower),
    acc.2.selectCandidate now validator state top)

/-- `collect_validator_snapshot`: how many validators, how many nominations, how much stake. -/
def collectValidatorSnapshot (s : State AccountId R) (now : ℕ) (validators : List AccountId) :
    Option ((ℕ × ℕ × ℕ) × State AccountId R) :=
  validators.foldlM (countSnapshot now) ((0, 0, 0), s)

/-- `compute_top_candidates`: full nodes and basic nodes. -/
def computeTopCandidates (cfg : Config AccountId) (s : State AccountId R) :
    List AccountId × List AccountId :=
  (Ledger.getTopNCandidates (s.ledger.qualified cfg true) s.params.maxFullSelected
      cfg.minFullValidatorStk,
    Ledger.getTopNCandidates (s.ledger.qualified cfg false) s.params.maxBasicSelected
      cfg.minBasicValidatorStk)

/-- `update_top_candidates`. -/
def updateTopCandidates (rm : RelayManager AccountId R) (s : State AccountId R) (now : ℕ)
    (fullValidators basicValidators : List AccountId) :
    Option ((ℕ × ℕ × ℕ) × State AccountId R) := do
  let (full, s) ← s.collectValidatorSnapshot now fullValidators
  let (basic, s) ← s.collectValidatorSnapshot now basicValidators
  let validators := (fullValidators ++ basicValidators).toFinset
  let selection := { s.selection with
    selectedCandidates := validators
    selectedFullCandidates := fullValidators.toFinset
    selectedBasicCandidates := basicValidators.toFinset }
  return ((full.1 + basic.1, full.2.1 + basic.2.1, full.2.2 + basic.2.2),
    { s with
      selection := selection.refreshCachedSelectedCandidates s.params.storageCacheLifetime now
        validators
      relay := rm.refreshSelectedRelayers s.relay now fullValidators })

/-- `calculate_productivity_per_block`. -/
def calculateProductivityPerBlock (validatorCount roundLength : ℕ) : Perbill :=
  if validatorCount = 0 then .zero
  else .fromPercent (100 / (roundLength / validatorCount + 1) + 1)

/-! ## Delayed changes -/

/-- `handle_delayed_commission_sets`. -/
def handleDelayedCommissionSets (s : State AccountId R) (now : ℕ) : State AccountId R :=
  { s with
    delayedCommissionSets := s.delayedCommissionSets.remove (now - 1)
    ledger := (s.delayedCommissionSets.getD (now - 1) []).foldl (fun l c =>
      l.modifyCandidate c.who fun candidate => candidate.setCommission c.new) s.ledger }

/-- The points and the snapshot that follow a controller to its new account.  An absent entry is
read as the default and written under the new account. -/
def moveRewards (s : State AccountId R) (now : ℕ) (old new : AccountId) : State AccountId R :=
  let take (m : StorageMap (ℕ × AccountId) ℕ) (round : ℕ) :=
    (m.remove (round, old)).insert (round, new) (m.getD (round, old) 0)
  { s with rewards := { s.rewards with
      awardedPts := take (take s.rewards.awardedPts now) (now - 1)
      atStake := (s.rewards.atStake.remove (now, old)).insert (now, new)
        (s.snapshot now old) } }

/-- One request of `handle_delayed_controller_sets`. -/
def applyControllerSet (rm : RelayManager AccountId R) (now : ℕ) (s : State AccountId R)
    (c : DelayedControllerSet AccountId) : State AccountId R :=
  match s.ledger.candidateInfo.get c.old with
  | none => s
  | some candidate =>
      { s.moveRewards now c.old c.new with
        ledger := s.ledger.replaceController c candidate
        selection :=
          if candidate.isSelected then
            s.selection.replaceFromSelectedCandidates s.now c.old c.new candidate.tier
          else s.selection
        relay :=
          if candidate.tier = .full then rm.replaceBondedController s.relay c.old c.new
          else s.relay }

/-- `handle_delayed_controller_sets`. -/
def handleDelayedControllerSets (rm : RelayManager AccountId R) (s : State AccountId R)
    (now : ℕ) : State AccountId R :=
  (s.delayedControllerSets.getD (now - 1) []).foldl (applyControllerSet rm now)
    { s with delayedControllerSets := s.delayedControllerSets.remove (now - 1) }

/-! ## Hooks -/

/-- The writes of `new_round` between the selection and the delayed changes. -/
def startRound (rm : RelayManager AccountId R) (s : State AccountId R) (round : RoundInfo)
    (validatorCount : ℕ) : State AccountId R :=
  let now := round.currentRoundIndex
  { s with
    round := round
    selection := { s.selection.refreshMajority s.params.storageCacheLifetime now with
      productivityPerBlock := calculateProductivityPerBlock validatorCount round.roundLength }
    relay := rm.refreshMajority s.relay now
    rewards := { s.rewards with
      staked := s.rewards.staked.insert now s.ledger.total
      totalAtStake := s.rewards.totalAtStake.remove (now - 1) } }

/-- `new_round` up to `update_top_candidates`: the number of validators, and the state in which
their snapshots have just been taken. -/
def selectForRound (cfg : Config AccountId) (rm : RelayManager AccountId R)
    (s : State AccountId R) (round : RoundInfo) (fullValidators basicValidators : List AccountId) :
    Option (ℕ × State AccountId R) := do
  let now := round.currentRoundIndex
  let s := { s with
    relay := rm.handleDelayedRelayerSets (rm.refreshRound s.relay now) now
    ledger := s.ledger.resetCandidateStates }
  let s := s.prepareStakingPayouts cfg now
  let ((validatorCount, _, _), s) ← s.updateTopCandidates rm now fullValidators basicValidators
  return (validatorCount, s)

/-- The rest of `new_round`. -/
def enterRound (rm : RelayManager AccountId R) (s : State AccountId R) (round : RoundInfo)
    (validatorCount : ℕ) : State AccountId R :=
  let now := round.currentRoundIndex
  ((s.startRound rm round validatorCount).handleDelayedCommissionSets
    now).handleDelayedControllerSets rm now

/-- `new_round`. -/
def newRound (cfg : Config AccountId) (rm : RelayManager AccountId R) (s : State AccountId R)
    (now : ℕ) (fullValidators basicValidators : List AccountId) : Option (State AccountId R) :=
  let round := s.round.updateRound s.session now
  (s.selectForRound cfg rm round fullValidators basicValidators).map fun (validatorCount, s) =>
    s.enterRound rm round validatorCount

/-- The first half of `new_session`: productivity, session index and round information. -/
def enterSession (s : State AccountId R) (now newIndex : ℕ) (sessionValidators : List AccountId) :
    State AccountId R :=
  { s with
    ledger := s.ledger.computeProductivity s.selection.productivityPerBlock sessionValidators
    session := wrappingSubU32 newIndex 1
    round := s.round.updateSession now (wrappingSubU32 newIndex 1) }

/-- The second half: the candidates with session keys are selected for a new round, if one is
due. -/
def tryNewRound (cfg : Config AccountId) (rm : RelayManager AccountId R) (s : State AccountId R)
    (now : ℕ) (hasKeys : AccountId → Bool) : Option (State AccountId R) :=
  if s.round.shouldUpdate now then
    s.newRound cfg rm now ((s.computeTopCandidates cfg).1.filter hasKeys)
      ((s.computeTopCandidates cfg).2.filter hasKeys)
  else some s

/-- `new_session`: the validators of the session `newIndex`, in increasing order. -/
def newSession (cfg : Config AccountId) (rm : RelayManager AccountId R) (s : State AccountId R)
    (now newIndex : ℕ) (sessionValidators : List AccountId) (hasKeys : AccountId → Bool) :
    Option (Option (List AccountId) × State AccountId R) := do
  let s := s.enterSession now newIndex sessionValidators
  let s ← s.tryNewRound cfg rm now hasKeys
  let s := { s with offences := s.offences.refreshOffences (wrappingSubU32 newIndex 1) }
  let validators := StorageMap.ascending s.selection.selectedCandidates
  return (if validators.isEmpty ∧ newIndex ≤ 1 then none else some validators, s)

/-- `end_session`. -/
def endSession (rm : RelayManager AccountId R) (s : State AccountId R) : State AccountId R :=
  { s with relay := rm.collectHeartbeats s.relay }

/-- `note_author`: of the pallet, then of its `EventHandler`. -/
def noteAuthor (s : State AccountId R) (author : AccountId) : State AccountId R :=
  let pts := s.rewards.awardedPts.getD (s.now, author) 0
  { s with
    ledger := s.ledger.modifyCandidate author fun state =>
      { (state.setLastBlock (s.round.currentBlock + 1)).incrementBlocksProduced with
        productivityStatus := .active }
    rewards := { s.rewards with
      awardedPts := s.rewards.awardedPts.insert (s.now, author) (pts + 5)
      points := s.rewards.points.insert s.now (s.rewards.points.getD s.now 0 + 5) } }

/-- `on_initialize`: the payout it made, and the state after it. -/
def onInitialize (cfg : Config AccountId) (s : State AccountId R) (n : ℕ)
    (drained : Option AccountId) : Option (Option (AccountId × ℕ) × State AccountId R) := do
  let s := { s with round := s.round.updateBlock n }
  let s ← s.refreshTotalSnapshot s.now
  s.handleDelayedPayouts cfg s.now drained

/-! ## Offences -/

/-- `kickout_validator`. -/
def kickoutValidator (rm : RelayManager AccountId R) (s : State AccountId R) (who : AccountId) :
    Option (State AccountId R) := do
  let l := (s.ledger.removeFromCandidatePool who).2
  let candidateState ← l.candidateInfo.get who
  let candidateState := candidateState.kickOut
  let s := (s.withLedger l).putCandidate who candidateState
  let sel := s.selection.removeFromSelectedCandidates who candidateState.tier
  let sel := sel.refreshLatestCachedSelectedCandidates s.now
  let sel := { sel with majority := sel.computeMajority }
  return { s with
    selection := sel.refreshLatestCachedMajority s.now
    relay :=
      if candidateState.tier = .full then rm.kickoutRelayer s.relay who else s.relay }

/-- The metadata after `slash_reserved_bonds`: a request that the smaller bond no longer covers is
dropped. -/
def slashed (cfg : Config AccountId) (self : CandidateMetadata AccountId) (offenderSlash : ℕ) :
    CandidateMetadata AccountId :=
  let self := (self.slashBond offenderSlash).slashVotingPower offenderSlash
  match self.request with
  | none => self
  | some request =>
      if self.bond ≤ request.amount ∨
          self.bond - request.amount < CandidateMetadata.minCandidateStk cfg self.tier then
        { self with request := none }
      else self

/-- `slash_reserved_bonds`. -/
def slashReservedBonds (cfg : Config AccountId) (s : State AccountId R) (offender : AccountId)
    (offenderSlash : ℕ) : Option (State AccountId R) := do
  let candidateState ← s.ledger.candidateInfo.get offender
  return (s.withLedger { s.ledger with total := s.ledger.total - offenderSlash }).putCandidate
    offender (slashed cfg candidateState offenderSlash)

/-- One offender of `on_offence`. -/
def offend (cfg : Config AccountId) (rm : RelayManager AccountId R) (slashSession : ℕ)
    (s : State AccountId R) (details : AccountId × Perbill) : Option (State AccountId R) :=
  match s.ledger.candidateInfo.get details.1 with
  | none => some s
  | some candidateState =>
      if candidateState.isKickedOut then some s
      else
        let offenderSlash := details.2.mul candidateState.bond
        let offence : Offence := ⟨s.now, slashSession, candidateState.bond, offenderSlash,
          offenderSlash, 0, details.2⟩
        let ((isSlashed, slashAmount), offences, currency) :=
          s.offences.tryHandleOffence s.ledger.currency details.1 candidateState.stash
            candidateState.tier offence
        let s := { s with offences := offences, ledger := { s.ledger with currency := currency } }
        if isSlashed then
          (s.kickoutValidator rm details.1).bind fun s =>
            s.slashReservedBonds cfg details.1 slashAmount
        else some s

/-- `on_offence`. -/
def onOffence (cfg : Config AccountId) (rm : RelayManager AccountId R) (s : State AccountId R)
    (offenders : List (AccountId × Perbill)) (slashSession : ℕ) : Option (State AccountId R) :=
  offenders.foldlM (offend cfg rm slashSession) s

end State

/-! ## Genesis -/

/-- `GenesisConfig` of the pallet, with the balances, the relay manager and the offence settings
that the other pallets start with. -/
structure GenesisConfig (AccountId R : Type) where
  candidates : List (AccountId × AccountId × AccountId × ℕ)
  nominations : List (AccountId × AccountId × ℕ)
  inflationConfig : InflationInfo
  free : AccountId → ℕ
  others : AccountId → ℕ
  relay : R
  offences : Offences AccountId

namespace GenesisConfig

variable (cfg : Config AccountId) (rm : RelayManager AccountId R)

/-- The storage before any candidate has joined. -/
def blank (g : GenesisConfig AccountId R) : State AccountId R where
  ledger := ⟨∅, ∅, ∅, ∅, ∅, ∅, 0, 0, ⟨g.free, fun _ => 0, g.others⟩, []⟩
  selection := ⟨∅, ∅, ∅, ∅, 0, ∅, .zero⟩
  rewards := ⟨∅, ∅, ∅, ∅, ∅, ∅⟩
  params :=
    { maxTotalSelected := 0
      maxFullSelected := 0
      maxBasicSelected := 0
      storageCacheLifetime := 0
      inflationConfig := g.inflationConfig
      defaultFullValidatorCommission := cfg.defaultFullValidatorCommission
      defaultBasicValidatorCommission := cfg.defaultBasicValidatorCommission
      maxFullValidatorCommission := cfg.maxFullValidatorCommission
      maxBasicValidatorCommission := cfg.maxBasicValidatorCommission }
  round := ⟨1, 1, 1, 0, 0, 0, 20, 200⟩
  session := 0
  delayedControllerSets := ∅
  delayedCommissionSets := ∅
  offences := g.offences
  relay := g.relay

/-- The loop over the initial candidates.  The candidate count grows by one for each entry and
by another one for each success. -/
def joinAll : State AccountId R → ℕ → List (AccountId × AccountId × AccountId × ℕ) →
    Option (State AccountId R)
  | s, _, [] => some s
  | s, candidateCount, (stash, controller, relayer, balance) :: rest =>
      if balance ≤ s.ledger.currency.free stash then
        match s.joinCandidates cfg rm stash controller (some relayer) balance
            (candidateCount + 1) with
        | .ok s => joinAll s (candidateCount + 2) rest
        | .error _ => joinAll s (candidateCount + 1) rest
      else none

/-- The loop over the initial nominations, with the two counters that serve as weight hints. -/
def nominateAll : State AccountId R → StorageMap AccountId ℕ → StorageMap AccountId ℕ →
    List (AccountId × AccountId × ℕ) → Option (State AccountId R)
  | s, _, _, [] => some s
  | s, validatorNominatorCount, nominatorNominationCount, (nominator, target, balance) :: rest =>
      if balance ≤ s.ledger.currency.free nominator then
        let vnCount := validatorNominatorCount.getD target 0
        let nnCount := nominatorNominationCount.getD nominator 0
        match s.ledger.nominate cfg nominator target balance vnCount nnCount with
        | .ok l =>
            nominateAll (s.withLedger l) (validatorNominatorCount.insert target (vnCount + 1))
              (nominatorNominationCount.insert nominator (nnCount + 1)) rest
        | .error _ => nominateAll s validatorNominatorCount nominatorNominationCount rest
      else none

/-- `GenesisConfig::build`. -/
def build (g : GenesisConfig AccountId R) : Option (State AccountId R) := do
  let s ← joinAll cfg rm (g.blank cfg) 0 g.candidates
  let s ← nominateAll cfg s ∅ ∅ g.nominations
  let s := s.withParams { s.params with
    maxTotalSelected :=
      cfg.defaultMaxSelectedFullCandidates + cfg.defaultMaxSelectedBasicCandidates
    maxFullSelected := cfg.defaultMaxSelectedFullCandidates
    maxBasicSelected := cfg.defaultMaxSelectedBasicCandidates
    storageCacheLifetime := cfg.storageCacheLifetimeInRounds }
  let (fullValidators, basicValidators) := s.computeTopCandidates cfg
  let ((vCount, _, _), s) ← s.updateTopCandidates rm 1 fullValidators basicValidators
  let majority := s.selection.computeMajority
  return { s with
    selection := { s.selection with
      majority := majority
      cachedMajority := (∅ : StorageMap ℕ ℕ).insert 1 majority
      productivityPerBlock := State.calculateProductivityPerBlock vCount cfg.defaultBlocksPerRound }
    relay := rm.refreshRound (rm.refreshMajority s.relay 1) 1
    round := ⟨1, 0, 0, 0, 0, 0, cfg.defaultBlocksPerRound, cfg.defaultBlocksPerSession⟩
    rewards := { s.rewards with
      staked := s.rewards.staked.insert 1 s.ledger.total
      totalAtStake := s.rewards.totalAtStake.insert 1 .default } }

end GenesisConfig

end BifrostNode.Staking
