import BifrostNode.Staking.Board

/-!
# What nominators do

The dispatchables of nominators, and the methods of `Nominator` that reach over to the
candidate's side.  `now` is the current round; the caller is the signed origin, checked where the
calls are dispatched.

A dispatchable runs in a transaction: when it fails, nothing is kept.
`Nominator::increase_nomination` is also called by the payout hook, outside any transaction, so
it returns the ledger it leaves behind in both cases.
-/

namespace BifrostNode.Staking

variable {AccountId : Type} [LinearOrder AccountId]

/-- What `increase_nomination` and `execute_pending_request` write in the end. -/
def Ledger.settle (l : Ledger AccountId) (total : ℕ) (candidate : AccountId)
    (validatorState : CandidateMetadata AccountId) (nominator : Nominator AccountId) :
    Ledger AccountId :=
  { l with
    total := total
    candidateInfo := l.candidateInfo.insert candidate validatorState
    nominatorState := l.nominatorState.insert nominator.id nominator }

namespace Nominator

/-- The record with another amount for one candidate. -/
def setNomination (self : Nominator AccountId) (candidate : AccountId) (amount total : ℕ) :
    Nominator AccountId :=
  { self with nominations := self.nominations.insert candidate amount, total := total }

@[simp] lemma setNomination_id (self : Nominator AccountId) (c : AccountId) (a t : ℕ) :
    (self.setNomination c a t).id = self.id := rfl

/-- `increase_nomination`: the updated record, which is also written to storage. -/
def increaseNomination (cfg : Config AccountId) (l : Ledger AccountId)
    (self : Nominator AccountId) (candidate : AccountId) (amount : ℕ) :
    Except Error (Nominator AccountId) × Ledger AccountId :=
  match self.nominations.get candidate with
  | none => (.error .nominationDNE, l)
  | some beforeAmount =>
      let self := self.setNomination candidate (beforeAmount + amount) (self.total + amount)
      match l.candidateInfo.get candidate with
      | none => (.error .candidateDNE, l)
      | some validatorState =>
          match l.currency.reserve self.id amount with
          | .error e => (.error e, l)
          | .ok currency =>
              -- from here on the reserve is kept, whatever happens
              let l := { l with currency := currency }
              match validatorState.increaseNomination cfg l candidate self.id beforeAmount
                  amount with
              | .error e => (.error e, l)
              | .ok (_, validatorState, l) =>
                  let l := l.updateActive candidate validatorState.votingPower
                  (.ok self, l.settle (l.total + amount) candidate validatorState self)

end Nominator

/-- `nominator_leaves_candidate`. -/
def Ledger.nominatorLeavesCandidate (cfg : Config AccountId) (l : Ledger AccountId)
    (candidate nominator : AccountId) (amount : ℕ) : Except Error (Ledger AccountId) := do
  let state ← okOr (l.candidateInfo.get candidate) .candidateDNE
  let (_, state, l) ← state.rmNominationIfExists cfg l candidate nominator amount
  return { l with
    currency := l.currency.unreserve nominator amount
    total := l.total - amount
    candidateInfo := l.candidateInfo.insert candidate state }

namespace Nominator

/-- The `Revoke` branch of `execute_pending_request`; `self` is the record without the request.
The subtraction in its check is unchecked. -/
def executeRevoke (cfg : Config AccountId) (l : Ledger AccountId) (self : Nominator AccountId)
    (candidate : AccountId) (amount : ℕ) : Except Error (Ledger AccountId) := do
  let leaving := self.nominations.keys.card = 1
  ensure (leaving ∨ amount ≤ wrappingSub self.total cfg.minNominatorStk) .nominatorBondBelowMin
  let self := { self with requests := { self.requests with
    lessTotal := self.requests.lessTotal - amount
    revocationsCount := self.requests.revocationsCount - 1 } }
  let self := self.rmNominationIgnore candidate
  let l ← l.nominatorLeavesCandidate cfg candidate self.id amount
  return { l with
    nominatorState :=
      if leaving then l.nominatorState.remove self.id else l.nominatorState.insert self.id self }

/-- The `Decrease` branch of `execute_pending_request`; `self` is the record without the
request. -/
def executeDecrease (cfg : Config AccountId) (l : Ledger AccountId) (self : Nominator AccountId)
    (candidate : AccountId) (amount : ℕ) : Except Error (Ledger AccountId) := do
  let amountBefore ← okOr (self.nominations.get candidate) .nominationDNE
  ensure (amount < amountBefore) .nominationBelowMin
  let self := { self with
    requests := { self.requests with lessTotal := self.requests.lessTotal - amount } }
  let self := self.setNomination candidate (amountBefore - amount) (self.total - amount)
  ensure (cfg.minNomination ≤ self.total) .nominationBelowMin
  ensure (cfg.minNominatorStk ≤ self.total) .nominatorBondBelowMin
  let validator ← okOr (l.candidateInfo.get candidate) .candidateDNE
  let l := { l with currency := l.currency.unreserve self.id amount }
  let (_, validator, l) ← validator.decreaseNomination cfg l candidate self.id amountBefore amount
  return l.settle (l.total - amount) candidate validator self

/-- `execute_pending_request`. -/
def executePendingRequest (cfg : Config AccountId) (l : Ledger AccountId)
    (self : Nominator AccountId) (now : ℕ) (candidate : AccountId) :
    Except Error (Ledger AccountId) := do
  let request ← okOr (self.requests.requests.get candidate) .pendingNominationRequestDNE
  let self := { self with requests := { self.requests with
    requests := self.requests.requests.remove candidate } }
  ensure (request.whenExecutable ≤ now) .pendingNominationRequestNotDueYet
  match request.action with
  | .revoke => self.executeRevoke cfg l candidate request.amount
  | .decrease => self.executeDecrease cfg l candidate request.amount

end Nominator

namespace Ledger

/-- `is_candidate` with `TierType::All`. -/
def isCandidate (l : Ledger AccountId) (acc : AccountId) : Bool := (l.candidateInfo.get acc).isSome

/-- `is_nominator`. -/
def isNominator (l : Ledger AccountId) (acc : AccountId) : Bool := (l.nominatorState.get acc).isSome

/-- The first half of `nominate`: the record of the caller with the new nomination in it. -/
def nominatorWith (cfg : Config AccountId) (l : Ledger AccountId)
    (nominator candidate : AccountId) (amount nominationCount : ℕ) :
    Except Error (Nominator AccountId) :=
  match l.nominatorState.get nominator with
  | some state => do
      ensure state.isActive .cannotNominateIfLeaving
      ensure (cfg.minNomination ≤ amount) .nominationBelowMin
      ensure (state.nominations.keys.card ≤ nominationCount) .tooLowNominationCountToNominate
      ensure (state.nominations.keys.card < cfg.maxNominationsPerNominator)
        .exceedMaxNominationsPerNominator
      state.addNomination candidate amount
  | none => do
      ensure (cfg.minNominatorStk ≤ amount) .nominatorBondBelowMin
      ensure (!l.isCandidate nominator) .candidateExists
      return .new nominator candidate amount

/-- `nominate`. -/
def nominate (cfg : Config AccountId) (l : Ledger AccountId) (nominator candidate : AccountId)
    (amount candidateNominationCount nominationCount : ℕ) : Except Error (Ledger AccountId) := do
  ensure (l.currency.canReserve nominator amount) .insufficientBalance
  let nominatorState ← l.nominatorWith cfg nominator candidate amount nominationCount
  let state ← okOr (l.candidateInfo.get candidate) .candidateDNE
  ensure (state.nominationCount ≤ candidateNominationCount)
    .tooLowCandidateNominationCountToNominate
  let ((_, lessTotalStaked), state, l) ←
    state.addNomination cfg l candidate ⟨nominator, amount⟩
  let currency ← l.currency.reserve nominator amount
  let netTotalIncrease := lessTotalStaked.elim amount fun less => wrappingSub amount less
  return { l with
    currency := currency
    total := l.total + netTotalIncrease
    candidateInfo := l.candidateInfo.insert candidate state
    nominatorState := l.nominatorState.insert nominator nominatorState }

/-- Rewrite the caller's record. -/
def updateNominator (l : Ledger AccountId) (nominator : AccountId)
    (f : Nominator AccountId → Except Error (Nominator AccountId)) :
    Except Error (Ledger AccountId) := do
  let state ← okOr (l.nominatorState.get nominator) .nominatorDNE
  let state ← f state
  return { l with nominatorState := l.nominatorState.insert nominator state }

/-- `schedule_leave_nominators`. -/
def scheduleLeaveNominators (cfg : Config AccountId) (l : Ledger AccountId) (now : ℕ)
    (acc : AccountId) : Except Error (Ledger AccountId) :=
  l.updateNominator acc fun state => do
    ensure (!state.isLeaving) .nominatorAlreadyLeaving
    ensure (state.requests.requests.keys.card = 0) .pendingNominationRequestAlreadyExists
    return state.scheduleLeave cfg now

/-- The loop of `execute_leave_nominators`: an error is logged and the loop goes on. -/
def leaveAll (cfg : Config AccountId) (nominator : AccountId) (l : Ledger AccountId)
    (bonds : List (AccountId × ℕ)) : Ledger AccountId :=
  bonds.foldl (fun l bond =>
    match l.nominatorLeavesCandidate cfg bond.1 nominator bond.2 with
    | .ok l => l
    | .error e => { l with warnings := .nominatorLeaving nominator bond.1 e :: l.warnings }) l

/-- `execute_leave_nominators`. -/
def executeLeaveNominators (cfg : Config AccountId) (l : Ledger AccountId) (now : ℕ)
    (nominator : AccountId) (nominationCount : ℕ) : Except Error (Ledger AccountId) := do
  let state ← okOr (l.nominatorState.get nominator) .nominatorDNE
  state.canExecuteLeave now nominationCount
  let l := leaveAll cfg nominator l state.nominations.toList
  return { l with nominatorState := l.nominatorState.remove nominator }

/-- `cancel_leave_nominators`. -/
def cancelLeaveNominators (l : Ledger AccountId) (nominator : AccountId) :
    Except Error (Ledger AccountId) :=
  l.updateNominator nominator fun state => do
    ensure state.isLeaving .nominatorDNE
    return state.cancelLeave

/-- `schedule_revoke_nomination`. -/
def scheduleRevokeNomination (cfg : Config AccountId) (l : Ledger AccountId) (now : ℕ)
    (nominator validator : AccountId) : Except Error (Ledger AccountId) :=
  l.updateNominator nominator fun state => do
    ensure (!state.isLeaving) .nominatorAlreadyLeaving
    let (_, state) ← state.scheduleRevoke cfg now validator
    return state

/-- `nominator_bond_more`: it does not look at the pending requests. -/
def nominatorBondMore (cfg : Config AccountId) (l : Ledger AccountId)
    (nominator candidate : AccountId) (more : ℕ) : Except Error (Ledger AccountId) := do
  let state ← okOr (l.nominatorState.get nominator) .nominatorDNE
  let (result, l) := state.increaseNomination cfg l candidate more
  let _ ← result
  return l

/-- `schedule_nominator_bond_less`. -/
def scheduleNominatorBondLess (cfg : Config AccountId) (l : Ledger AccountId) (now : ℕ)
    (caller candidate : AccountId) (less : ℕ) : Except Error (Ledger AccountId) :=
  l.updateNominator caller fun state => do
    ensure (!state.isLeaving) .nominatorAlreadyLeaving
    let (_, state) ← state.scheduleDecreaseNomination cfg now candidate less
    return state

/-- `execute_nomination_request`. -/
def executeNominationRequest (cfg : Config AccountId) (l : Ledger AccountId) (now : ℕ)
    (nominator candidate : AccountId) : Except Error (Ledger AccountId) := do
  let state ← okOr (l.nominatorState.get nominator) .nominatorDNE
  state.executePendingRequest cfg l now candidate

/-- `cancel_nomination_request`. -/
def cancelNominationRequest (l : Ledger AccountId) (nominator candidate : AccountId) :
    Except Error (Ledger AccountId) :=
  l.updateNominator nominator fun state => do
    let (_, state) ← state.cancelPendingRequest candidate
    return state

/-- `set_nominator_reward_dst`. -/
def setNominatorRewardDst (l : Ledger AccountId) (nominator : AccountId)
    (newRewardDst : RewardDestination) : Except Error (Ledger AccountId) :=
  l.updateNominator nominator fun state => do
    ensure (state.rewardDst ≠ newRewardDst) .noWritingSameValue
    return { state with rewardDst := newRewardDst }

end Ledger

end BifrostNode.Staking
