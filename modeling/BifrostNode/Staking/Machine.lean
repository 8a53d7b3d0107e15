import BifrostNode.Staking.Rounds

/-!
# The pallet as a state machine

A `Call` is a dispatchable of `bfc-staking` with its arguments.  Calls run in a transaction: a
failing call leaves the state as it was.  Hooks do not, and a hook that panics takes the block with
it, so such a step does not exist.

**Steps** are calls with an origin, hooks, and what happens around the pallet between them:
balances move, the relay manager does its own work, and the offence settings change.  The hooks
read the order in which `AwardedPts` is drained, the block author, the session keys and the
offenders from outside, so a step carries them.

**Runs** start from any genesis configuration that can be built.
-/

namespace BifrostNode.Staking

open Transition

variable {AccountId R : Type}

/-- The dispatchables of the pallet, in the order of their call index. -/
inductive Call (AccountId : Type)
  | setStakingExpectations (expectations : Range ℕ)
  | setInflation (schedule : Range Perbill)
  | setMaxFullSelected (new : ℕ)
  | setMaxBasicSelected (new : ℕ)
  | setDefaultValidatorCommission (new : Perbill) (tier : TierType)
  | setMaxValidatorCommission (new : Perbill) (tier : TierType)
  | setValidatorCommission (new : Perbill)
  | cancelValidatorCommissionSet
  | setValidatorTier (more : ℕ) (new : TierType) (relayer : Option AccountId)
  | setBlocksPerRound (new : ℕ)
  | setStorageCacheLifetime (new : ℕ)
  | joinCandidates (controller : AccountId) (relayer : Option AccountId) (bond candidateCount : ℕ)
  | scheduleLeaveCandidates (candidateCount : ℕ)
  | executeLeaveCandidates (candidateNominationCount : ℕ)
  | cancelLeaveCandidates (candidateCount : ℕ)
  | setController (new : AccountId)
  | cancelControllerSet
  | setCandidateRewardDst (newRewardDst : RewardDestination)
  | setNominatorRewardDst (newRewardDst : RewardDestination)
  | goOffline
  | goOnline
  | candidateBondMore (more : ℕ)
  | scheduleCandidateBondLess (less : ℕ)
  | executeCandidateBondLess
  | cancelCandidateBondLess
  | nominate (candidate : AccountId) (amount candidateNominationCount nominationCount : ℕ)
  | scheduleLeaveNominators
  | executeLeaveNominators (nominationCount : ℕ)
  | cancelLeaveNominators
  | scheduleRevokeNomination (validator : AccountId)
  | nominatorBondMore (candidate : AccountId) (more : ℕ)
  | scheduleNominatorBondLess (candidate : AccountId) (less : ℕ)
  | executeNominationRequest (candidate : AccountId)
  | cancelNominationRequest (candidate : AccountId)

/-- What can happen next. -/
inductive Step (AccountId R : Type)
  | call (origin : Origin AccountId) (call : Call AccountId)
  | onInitialize (n : ℕ) (drained : Option AccountId)
  | noteAuthor (author : AccountId)
  | endSession
  | newSession (now newIndex : ℕ) (sessionValidators : List AccountId)
      (hasKeys : AccountId → Bool)
  | onOffence (offenders : List (AccountId × Perbill)) (slashSession : ℕ)
  | balances (free others : AccountId → ℕ)
  | relay (state : R)
  | offenceSettings (isOffenceActive isSlashActive : Bool)
      (offenceExpirationInSessions fullMaximumOffenceCount basicMaximumOffenceCount : ℕ)

variable [LinearOrder AccountId]

/-- A call on the ledger. -/
def State.onLedger (s : State AccountId R) (r : Except Error (Ledger AccountId)) :
    Except Error (State AccountId R) := r.map s.withLedger

/-- The calls that need a signed origin. -/
def State.signed (cfg : Config AccountId) (rm : RelayManager AccountId R) (s : State AccountId R)
    (who : AccountId) : Call AccountId → Except Error (State AccountId R)
  | .setValidatorCommission new => s.setValidatorCommission who new
  | .cancelValidatorCommissionSet => s.cancelValidatorCommissionSet who
  | .setValidatorTier more new relayer => s.setValidatorTier cfg rm who more new relayer
  | .joinCandidates controller relayer bond count =>
      s.joinCandidates cfg rm who controller relayer bond count
  | .scheduleLeaveCandidates count => s.scheduleLeaveCandidates cfg who count
  | .executeLeaveCandidates count => s.executeLeaveCandidates rm who count
  | .cancelLeaveCandidates count => s.cancelLeaveCandidates who count
  | .setController new => s.setController who new
  | .cancelControllerSet => s.cancelControllerSet who
  | .setCandidateRewardDst dst => s.onLedger (s.ledger.setCandidateRewardDst who dst)
  | .setNominatorRewardDst dst => s.onLedger (s.ledger.setNominatorRewardDst who dst)
  | .goOffline => s.goOffline rm who
  | .goOnline => s.goOnline who
  | .candidateBondMore more => s.onLedger (s.ledger.candidateBondMore who more)
  | .scheduleCandidateBondLess less =>
      s.onLedger (s.ledger.scheduleCandidateBondLess cfg s.now who less)
  | .executeCandidateBondLess => s.onLedger (s.ledger.executeCandidateBondLess s.now who)
  | .cancelCandidateBondLess => s.onLedger (s.ledger.cancelCandidateBondLess who)
  | .nominate candidate amount candidateCount count =>
      s.onLedger (s.ledger.nominate cfg who candidate amount candidateCount count)
  | .scheduleLeaveNominators => s.onLedger (s.ledger.scheduleLeaveNominators cfg s.now who)
  | .executeLeaveNominators count =>
      s.onLedger (s.ledger.executeLeaveNominators cfg s.now who count)
  | .cancelLeaveNominators => s.onLedger (s.ledger.cancelLeaveNominators who)
  | .scheduleRevokeNomination validator =>
      s.onLedger (s.ledger.scheduleRevokeNomination cfg s.now who validator)
  | .nominatorBondMore candidate more =>
      s.onLedger (s.ledger.nominatorBondMore cfg who candidate more)
  | .scheduleNominatorBondLess candidate less =>
      s.onLedger (s.ledger.scheduleNominatorBondLess cfg s.now who candidate less)
  | .executeNominationRequest candidate =>
      s.onLedger (s.ledger.executeNominationRequest cfg s.now who candidate)
  | .cancelNominationRequest candidate =>
      s.onLedger (s.ledger.cancelNominationRequest who candidate)
  | _ => .error .badOrigin

/-- Dispatch a call. -/
def State.dispatch (cfg : Config AccountId) (rm : RelayManager AccountId R)
    (s : State AccountId R) (origin : Origin AccountId) :
    Call AccountId → Except Error (State AccountId R)
  | .setStakingExpectations expectations => s.setStakingExpectations cfg origin expectations
  | .setInflation schedule => s.setInflation cfg origin schedule
  | .setMaxFullSelected new => s.setMaxFullSelected origin new
  | .setMaxBasicSelected new => s.setMaxBasicSelected origin new
  | .setDefaultValidatorCommission new tier => s.setDefaultValidatorCommission origin new tier
  | .setMaxValidatorCommission new tier => s.setMaxValidatorCommission origin new tier
  | .setBlocksPerRound new => s.setBlocksPerRound cfg origin new
  | .setStorageCacheLifetime new => s.setStorageCacheLifetime origin new
  | call => do
      let who ← ensureSigned origin
      s.signed cfg rm who call

/-- **One step**: a call that fails changes nothing, and a hook that panics is no step. -/
def State.step (cfg : Config AccountId) (rm : RelayManager AccountId R) (s : State AccountId R) :
    Step AccountId R → Option (State AccountId R)
  | .call origin call => some (commit s (s.dispatch cfg rm origin call))
  | .onInitialize n drained => (s.onInitialize cfg n drained).map Prod.snd
  | .noteAuthor author => some (s.noteAuthor author)
  | .endSession => some (s.endSession rm)
  | .newSession now newIndex sessionValidators hasKeys =>
      (s.newSession cfg rm now newIndex sessionValidators hasKeys).map Prod.snd
  | .onOffence offenders slashSession => s.onOffence cfg rm offenders slashSession
  | .balances free others =>
      some (s.withLedger { s.ledger with
        currency := { s.ledger.currency with free := free, others := others } })
  | .relay state => some { s with relay := state }
  | .offenceSettings isOffenceActive isSlashActive expiration full basic =>
      some { s with offences := { s.offences with
        isOffenceActive := isOffenceActive
        isSlashActive := isSlashActive
        offenceExpirationInSessions := expiration
        fullMaximumOffenceCount := full
        basicMaximumOffenceCount := basic } }

/-- The first states. -/
def IsGenesis (cfg : Config AccountId) (rm : RelayManager AccountId R) (s : State AccountId R) :
    Prop := ∃ g : GenesisConfig AccountId R, g.build cfg rm = some s

/-- The states of runs all of whose steps meet a condition. -/
def ReachableIf (cfg : Config AccountId) (rm : RelayManager AccountId R)
    (cond : State AccountId R → Step AccountId R → Prop) (s : State AccountId R) : Prop :=
  Reachable (IsGenesis cfg rm) (State.step cfg rm) cond s

/-! ## A small network

Two full nodes, with stash 1, controller 2 and relayer 3 and with 11, 12 and 13, and the nominators
5 and 6 of the first one.  Lists hold two top nominations and one bottom nomination, and all delays
are one round. -/

section Devnet

def devnet : Config ℕ where
  defaultBlocksPerSession := 10
  defaultBlocksPerRound := 20
  minBlocksPerRound := 2
  maxBlocksPerRound := 100
  storageCacheLifetimeInRounds := 4
  leaveCandidatesDelay := 1
  candidateBondLessDelay := 1
  leaveNominatorsDelay := 1
  revokeNominationDelay := 1
  nominationBondLessDelay := 1
  rewardPaymentDelay := 1
  defaultMaxSelectedFullCandidates := 3
  defaultMaxSelectedBasicCandidates := 3
  maxTopNominationsPerCandidate := 2
  maxBottomNominationsPerCandidate := 1
  maxNominationsPerNominator := 2
  defaultFullValidatorCommission := .fromPercent 50
  defaultBasicValidatorCommission := .fromPercent 10
  maxFullValidatorCommission := .fromPercent 100
  maxBasicValidatorCommission := .fromPercent 20
  minFullValidatorStk := 1000
  minBasicValidatorStk := 500
  minFullCandidateStk := 1000
  minBasicCandidateStk := 500
  minNomination := 10
  minNominatorStk := 10
  monetaryGovernanceOrigin origin := origin matches .root
  perbillAnnualToPerbillRound schedule _ := schedule
  one_le_maxTop := by decide
  one_le_maxBottom := by decide
  one_le_minNomination := by decide
  minNomination_le_minNominatorStk := by decide

/-- A relay manager that accepts everything. -/
def devnetRelays : RelayManager ℕ Unit where
  joinRelayers _ _ _ := .ok ()
  leaveRelayers _ _ := ()
  kickoutRelayer _ _ := ()
  refreshRound _ _ := ()
  handleDelayedRelayerSets _ _ := ()
  refreshSelectedRelayers _ _ _ := ()
  refreshMajority _ _ := ()
  replaceBondedController _ _ _ := ()
  collectHeartbeats _ := ()

def devnetGenesis : GenesisConfig ℕ Unit where
  candidates := [(1, 2, 3, 1000), (11, 12, 13, 1000)]
  nominations := [(6, 2, 50), (5, 2, 100)]
  inflationConfig := ⟨⟨0, 1000, 2000⟩, ⟨.fromPercent 1, .fromPercent 2, .fromPercent 3⟩,
    ⟨.fromPercent 1, .fromPercent 2, .fromPercent 3⟩⟩
  free _ := 10000
  others _ := 0
  relay := ()
  offences := ⟨∅, true, true, 10, 3, 3⟩

/-- The end of a list of steps from genesis. -/
def devnetRun (steps : List (Step ℕ Unit)) : Option (State ℕ Unit) :=
  (devnetGenesis.build devnet devnetRelays).bind fun s =>
    runSteps (State.step devnet devnetRelays) s steps

lemma devnetRun_reachable {steps : List (Step ℕ Unit)} {s : State ℕ Unit}
    (h : devnetRun steps = some s) : ReachableIf devnet devnetRelays anyStep s := by
  obtain ⟨s₀, h₀, h⟩ := Option.bind_eq_some_iff.mp h
  exact Reachable.runSteps (.init ⟨devnetGenesis, h₀⟩) h

/-- What a run shows, it shows of a reachable state. -/
lemma devnetRun_exists {steps : List (Step ℕ Unit)} {P : State ℕ Unit → Bool}
    (h : (devnetRun steps).any P = true) :
    ∃ s, ReachableIf devnet devnetRelays anyStep s ∧ P s = true := by
  cases hs : devnetRun steps with
  | none =>
      rw [hs] at h
      cases h
  | some s =>
      rw [hs] at h
      exact ⟨s, devnetRun_reachable hs, h⟩

/-- The end of a list of steps from genesis that meet a condition. -/
def devnetRunIf (cond : State ℕ Unit → Step ℕ Unit → Prop) [∀ s i, Decidable (cond s i)]
    (steps : List (Step ℕ Unit)) : Option (State ℕ Unit) :=
  (devnetGenesis.build devnet devnetRelays).bind fun s =>
    runSteps (checked (State.step devnet devnetRelays) cond) s steps

/-- What such a run shows, it shows of a state that is reached under the condition. -/
lemma devnetRunIf_exists {cond : State ℕ Unit → Step ℕ Unit → Prop} [∀ s i, Decidable (cond s i)]
    {steps : List (Step ℕ Unit)} {P : State ℕ Unit → Bool}
    (h : (devnetRunIf cond steps).any P = true) :
    ∃ s, ReachableIf devnet devnetRelays cond s ∧ P s = true := by
  obtain ⟨s, hs, hP⟩ := (Option.any_eq_true _ _).mp h
  obtain ⟨s₀, h₀, hs⟩ := Option.bind_eq_some_iff.mp hs
  exact ⟨s, .runChecked (.init ⟨devnetGenesis, h₀⟩) hs, hP⟩

end Devnet

end BifrostNode.Staking
