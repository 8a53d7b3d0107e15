import BifrostNode.Staking.Ledger

/-!
# The nomination lists of a candidate

The eight list operations of `CandidateMetadata`: add, remove, increase and decrease, each on the
top and on the bottom list, and the four functions that choose between the two.  In the source
they are methods on a local copy of the candidate's metadata that write the lists, the pool and,
for a kicked nomination, a third party's record straight to storage; here the copy `self` and the
ledger `l` are passed along together.
-/

namespace BifrostNode.Staking

variable {AccountId : Type} [LinearOrder AccountId]

/-- Write the top nominations of a candidate. -/
def Ledger.putTop (l : Ledger AccountId) (candidate : AccountId)
    (topNominations : Nominations AccountId) : Ledger AccountId :=
  { l with topNominations := l.topNominations.insert candidate topNominations }

/-- Write the bottom nominations of a candidate. -/
def Ledger.putBottom (l : Ledger AccountId) (candidate : AccountId)
    (bottomNominations : Nominations AccountId) : Ledger AccountId :=
  { l with bottomNominations := l.bottomNominations.insert candidate bottomNominations }

namespace CandidateMetadata

def incrementNominationCount (self : CandidateMetadata AccountId) : CandidateMetadata AccountId :=
  { self with nominationCount := self.nominationCount + 1 }

def decrementNominationCount (self : CandidateMetadata AccountId) : CandidateMetadata AccountId :=
  { self with nominationCount := self.nominationCount - 1 }

/-- The metadata part of `reset_top_data`. -/
def mirrorTop (cfg : Config AccountId) (self : CandidateMetadata AccountId)
    (topNominations : Nominations AccountId) : CandidateMetadata AccountId :=
  { self with
    lowestTopNominationAmount := topNominations.lowestNominationAmount
    topCapacity := topNominations.topCapacity cfg
    votingPower := self.bond + topNominations.total }

/-- `reset_top_data`: mirror the top list, and let the pool follow if the voting power moved. -/
def resetTopData (cfg : Config AccountId) (l : Ledger AccountId)
    (self : CandidateMetadata AccountId) (candidate : AccountId)
    (topNominations : Nominations AccountId) : CandidateMetadata AccountId × Ledger AccountId :=
  let new := self.mirrorTop cfg topNominations
  (new, if self.votingPower ≠ new.votingPower then l.updateActive candidate new.votingPower else l)

/-- `reset_bottom_data`: mirror the bottom list. -/
def resetBottomData (cfg : Config AccountId) (self : CandidateMetadata AccountId)
    (bottomNominations : Nominations AccountId) : CandidateMetadata AccountId :=
  { self with
    lowestBottomNominationAmount := bottomNominations.lowestNominationAmount
    highestBottomNominationAmount := bottomNominations.highestNominationAmount
    bottomCapacity := bottomNominations.bottomCapacity cfg }

/-! ## Add -/

/-- What `add_bottom_nomination` does with a full list: the lowest bottom nomination is popped,
unreserved and removed from its nominator, who goes altogether if it was the only one. -/
def kickLowestBottom (l : Ledger AccountId) (candidate : AccountId)
    (bottomNominations : Nominations AccountId) :
    Except Error (Nominations AccountId × Ledger AccountId) := do
  let kicked ← okOr bottomNominations.nominations.getLast? .bottomNominationDNE
  let nominatorState ← okOr (l.nominatorState.get kicked.owner) .nominatorDNE
  let leaving := nominatorState.nominations.keys.card = 1
  return (⟨bottomNominations.nominations.dropLast, bottomNominations.total - kicked.amount⟩,
    { l with
      currency := l.currency.unreserve kicked.owner kicked.amount
      nominatorState :=
        if leaving then l.nominatorState.remove kicked.owner
        else l.nominatorState.insert kicked.owner (nominatorState.dropNomination candidate) })

/-- `add_bottom_nomination`. -/
def addBottomNomination (cfg : Config AccountId) (l : Ledger AccountId)
    (self : CandidateMetadata AccountId) (bumpedFromTop : Bool) (candidate : AccountId)
    (nomination : Bond AccountId) :
    Except Error (CandidateMetadata AccountId × Ledger AccountId) := do
  let bottomNominations ← okOr (l.bottomNominations.get candidate) .bottomNominationDNE
  let (bottomNominations, l, increaseNominationCount) ←
    if bottomNominations.nominations.length = cfg.maxBottomNominationsPerCandidate then do
      let (bottomNominations, l) ← kickLowestBottom l candidate bottomNominations
      pure (bottomNominations, l, false)
    else pure (bottomNominations, l, !bumpedFromTop)
  let self := if increaseNominationCount then self.incrementNominationCount else self
  let bottomNominations := bottomNominations.insertSortedGreatestToLeast nomination
  return (self.resetBottomData cfg bottomNominations,
    l.putBottom candidate bottomNominations)

/-- `add_top_nomination`: a full top list hands its lowest nomination to the bottom. -/
def addTopNomination (cfg : Config AccountId) (l : Ledger AccountId)
    (self : CandidateMetadata AccountId) (candidate : AccountId) (nomination : Bond AccountId) :
    Except Error (Option ℕ × CandidateMetadata AccountId × Ledger AccountId) := do
  let topNominations ← okOr (l.topNominations.get candidate) .topNominationDNE
  let (topNominations, lessTotalStaked, self, l) ←
    if topNominations.nominations.length = cfg.maxTopNominationsPerCandidate then do
      let newBottomNomination ← okOr topNominations.nominations.getLast? .topNominationDNE
      let lessTotalStaked :=
        if self.bottomCapacity = .full then some self.lowestBottomNominationAmount else none
      let (self, l) ← addBottomNomination cfg l self true candidate newBottomNomination
      pure ((⟨topNominations.nominations.dropLast,
        topNominations.total - newBottomNomination.amount⟩ : Nominations AccountId),
        lessTotalStaked, self, l)
    else pure (topNominations, none, self, l)
  let topNominations := topNominations.insertSortedGreatestToLeast nomination
  let (self, l) := resetTopData cfg l self candidate topNominations
  -- the count stays when somebody was kicked from the bottom
  let self := if lessTotalStaked.isNone then self.incrementNominationCount else self
  return (lessTotalStaked, self,
    l.putTop candidate topNominations)

/-- `add_nomination`. -/
def addNomination (cfg : Config AccountId) (l : Ledger AccountId)
    (self : CandidateMetadata AccountId) (candidate : AccountId) (nomination : Bond AccountId) :
    Except Error
      ((NominatorAdded × Option ℕ) × CandidateMetadata AccountId × Ledger AccountId) := do
  if self.topCapacity = .full then
    if self.lowestTopNominationAmount < nomination.amount then do
      let (lessTotalStaked, self, l) ← addTopNomination cfg l self candidate nomination
      return ((.addedToTop self.votingPower, lessTotalStaked), self, l)
    else do
      let lessTotalStaked ←
        if self.bottomCapacity = .full then do
          ensure (self.lowestBottomNominationAmount < nomination.amount)
            .cannotNominateLessThanLowestBottomWhenBottomIsFull
          pure (some self.lowestBottomNominationAmount)
        else pure none
      let (self, l) ← addBottomNomination cfg l self false candidate nomination
      return ((.addedToBottom, lessTotalStaked), self, l)
  else do
    let (_, self, l) ← addTopNomination cfg l self candidate nomination
    return ((.addedToTop self.votingPower, none), self, l)

/-! ## Remove -/

/-- `rm_top_nomination`: the highest bottom nomination, if any, moves up. -/
def rmTopNomination (cfg : Config AccountId) (l : Ledger AccountId)
    (self : CandidateMetadata AccountId) (candidate nominator : AccountId) :
    Except Error (Bool × CandidateMetadata AccountId × Ledger AccountId) := do
  let oldVotingPower := self.votingPower
  let topNominations ← okOr (l.topNominations.get candidate) .candidateDNE
  let actual ← okOr (topNominations.nominations.filter fun d => d.owner = nominator).getLast?
    .nominationDNE
  let topNominations : Nominations AccountId :=
    ⟨topNominations.nominations.filter fun d => d.owner ≠ nominator,
      topNominations.total - actual.amount⟩
  let (topNominations, self, l) ←
    if self.bottomCapacity ≠ .empty then do
      let bottomNominations ← okOr (l.bottomNominations.get candidate) .bottomNominationDNE
      let highestBottomNomination ← okOr bottomNominations.nominations.head? .indexOutOfBounds
      let bottomNominations : Nominations AccountId :=
        ⟨bottomNominations.nominations.tail,
          bottomNominations.total - highestBottomNomination.amount⟩
      pure (topNominations.insertSortedGreatestToLeast highestBottomNomination,
        self.resetBottomData cfg bottomNominations,
        l.putBottom candidate bottomNominations)
    else pure (topNominations, self, l)
  let (self, l) := resetTopData cfg l self candidate topNominations
  let self := self.decrementNominationCount
  return (oldVotingPower = self.votingPower, self,
    l.putTop candidate topNominations)

/-- `rm_bottom_nomination`. -/
def rmBottomNomination (cfg : Config AccountId) (l : Ledger AccountId)
    (self : CandidateMetadata AccountId) (candidate nominator : AccountId) :
    Except Error (Bool × CandidateMetadata AccountId × Ledger AccountId) := do
  let bottomNominations ← okOr (l.bottomNominations.get candidate) .bottomNominationDNE
  let actual ← okOr (bottomNominations.nominations.filter fun d => d.owner = nominator).getLast?
    .nominationDNE
  let bottomNominations : Nominations AccountId :=
    ⟨bottomNominations.nominations.filter fun d => d.owner ≠ nominator,
      bottomNominations.total - actual.amount⟩
  let self := self.resetBottomData cfg bottomNominations
  let self := self.decrementNominationCount
  return (false, self,
    l.putBottom candidate bottomNominations)

/-- The last two branches that remove, increase and decrease share: where the lowest top equals
the highest bottom amount, the top is tried first and the bottom when the nomination is not
there. -/
def topElseBottom {β : Type} (top bottom : Except Error β) : Except Error β :=
  match top with
  | .error .nominationDNE => bottom
  | result => result

/-- `rm_nomination_if_exists`. -/
def rmNominationIfExists (cfg : Config AccountId) (l : Ledger AccountId)
    (self : CandidateMetadata AccountId) (candidate nominator : AccountId) (amount : ℕ) :
    Except Error (Bool × CandidateMetadata AccountId × Ledger AccountId) :=
  let amountGeqLowestTop := self.lowestTopNominationAmount ≤ amount
  let topIsNotFull := self.topCapacity ≠ .full
  let lowestTopEqHighestBottom :=
    self.lowestTopNominationAmount = self.highestBottomNominationAmount
  if topIsNotFull ∨ (amountGeqLowestTop ∧ ¬ lowestTopEqHighestBottom) then
    rmTopNomination cfg l self candidate nominator
  else if amountGeqLowestTop ∧ lowestTopEqHighestBottom then
    topElseBottom (rmTopNomination cfg l self candidate nominator)
      (rmBottomNomination cfg l self candidate nominator)
  else rmBottomNomination cfg l self candidate nominator

/-! ## Increase -/

/-- Rewrite the amount of one owner's nomination. -/
def setAmount (nominator : AccountId) (f : ℕ → ℕ) (d : Bond AccountId) : Bond AccountId :=
  if d.owner = nominator then ⟨d.owner, f d.amount⟩ else d

/-- `increase_top_nomination`. -/
def increaseTopNomination (cfg : Config AccountId) (l : Ledger AccountId)
    (self : CandidateMetadata AccountId) (candidate nominator : AccountId) (more : ℕ) :
    Except Error (Bool × CandidateMetadata AccountId × Ledger AccountId) := do
  let topNominations ← okOr (l.topNominations.get candidate) .topNominationDNE
  ensure (∃ d ∈ topNominations.nominations, d.owner = nominator) .nominationDNE
  let topNominations : Nominations AccountId :=
    ⟨topNominations.nominations.map (setAmount nominator (· + more)), topNominations.total + more⟩
  let topNominations := topNominations.sortGreatestToLeast
  let (self, l) := resetTopData cfg l self candidate topNominations
  return (true, self,
    l.putTop candidate topNominations)

/-- `increase_bottom_nomination`: a nomination that outgrows the lowest top moves up. -/
def increaseBottomNomination (cfg : Config AccountId) (l : Ledger AccountId)
    (self : CandidateMetadata AccountId) (candidate nominator : AccountId) (bond more : ℕ) :
    Except Error (Bool × CandidateMetadata AccountId × Ledger AccountId) := do
  let bottomNominations ← okOr (l.bottomNominations.get candidate) .candidateDNE
  let (inTopAfter, bottomNominations, self, l) ←
    if self.lowestTopNominationAmount < bond + more then do
      let d ← okOr (bottomNominations.nominations.filter fun d => d.owner = nominator).getLast?
        .nominationDNE
      let nomination : Bond AccountId := ⟨d.owner, d.amount + more⟩
      let bottomNominations : Nominations AccountId :=
        ⟨bottomNominations.nominations.filter fun d => d.owner ≠ nominator,
          bottomNominations.total - bond⟩
      let topNominations ← okOr (l.topNominations.get candidate) .topNominationDNE
      let (topNominations, bottomNominations) ←
        if topNominations.topCapacity cfg = .full then do
          let newBottomNomination ← okOr topNominations.nominations.getLast? .topNominationDNE
          pure ((⟨topNominations.nominations.dropLast,
            topNominations.total - newBottomNomination.amount⟩ : Nominations AccountId),
            bottomNominations.insertSortedGreatestToLeast newBottomNomination)
        else pure (topNominations, bottomNominations)
      let topNominations := topNominations.insertSortedGreatestToLeast nomination
      let (self, l) := resetTopData cfg l self candidate topNominations
      pure (true, bottomNominations, self,
        l.putTop candidate topNominations)
    else do
      ensure (∃ d ∈ bottomNominations.nominations, d.owner = nominator) .nominationDNE
      let bottomNominations : Nominations AccountId :=
        ⟨bottomNominations.nominations.map (setAmount nominator (· + more)),
          bottomNominations.total + more⟩
      pure (false, bottomNominations.sortGreatestToLeast, self, l)
  return (inTopAfter, self.resetBottomData cfg bottomNominations,
    l.putBottom candidate bottomNominations)

/-- `increase_nomination`. -/
def increaseNomination (cfg : Config AccountId) (l : Ledger AccountId)
    (self : CandidateMetadata AccountId) (candidate nominator : AccountId) (bond more : ℕ) :
    Except Error (Bool × CandidateMetadata AccountId × Ledger AccountId) :=
  let lowestTopEqHighestBottom :=
    self.lowestTopNominationAmount = self.highestBottomNominationAmount
  let bondGeqLowestTop := self.lowestTopNominationAmount ≤ bond
  if bondGeqLowestTop ∧ ¬ lowestTopEqHighestBottom then
    increaseTopNomination cfg l self candidate nominator more
  else if bondGeqLowestTop ∧ lowestTopEqHighestBottom then
    topElseBottom (increaseTopNomination cfg l self candidate nominator more)
      (increaseBottomNomination cfg l self candidate nominator bond more)
  else increaseBottomNomination cfg l self candidate nominator bond more

/-! ## Decrease -/

/-- `decrease_top_nomination`: a nomination that falls below the highest bottom trades places
with it. -/
def decreaseTopNomination (cfg : Config AccountId) (l : Ledger AccountId)
    (self : CandidateMetadata AccountId) (candidate nominator : AccountId) (bond less : ℕ) :
    Except Error (Bool × CandidateMetadata AccountId × Ledger AccountId) := do
  let bondAfterLessThanHighestBottom := bond - less < self.highestBottomNominationAmount
  let fullTopAndNonemptyBottom := self.topCapacity = .full ∧ self.bottomCapacity ≠ .empty
  let topNominations ← okOr (l.topNominations.get candidate) .candidateDNE
  let (inTopAfter, topNominations, self, l) ←
    if bondAfterLessThanHighestBottom ∧ fullTopAndNonemptyBottom then do
      let taken := topNominations.nominations.filter fun d => d.owner = nominator
      let d ← okOr taken.getLast? .nominationDNE
      let nomination : Bond AccountId := ⟨d.owner, d.amount - less⟩
      let topNominations : Nominations AccountId :=
        ⟨topNominations.nominations.filter fun d => d.owner ≠ nominator,
          taken.foldl (fun total d => total - d.amount) topNominations.total⟩
      let bottomNominations ← okOr (l.bottomNominations.get candidate) .bottomNominationDNE
      let highestBottomNomination ← okOr bottomNominations.nominations.head? .indexOutOfBounds
      let bottomNominations : Nominations AccountId :=
        ⟨bottomNominations.nominations.tail,
          bottomNominations.total - highestBottomNomination.amount⟩
      let bottomNominations := bottomNominations.insertSortedGreatestToLeast nomination
      pure (false, topNominations.insertSortedGreatestToLeast highestBottomNomination,
        self.resetBottomData cfg bottomNominations,
        l.putBottom candidate bottomNominations)
    else do
      ensure (∃ d ∈ topNominations.nominations, d.owner = nominator) .nominationDNE
      let topNominations : Nominations AccountId :=
        ⟨topNominations.nominations.map (setAmount nominator (· - less)),
          topNominations.total - less⟩
      pure (true, topNominations.sortGreatestToLeast, self, l)
  let (self, l) := resetTopData cfg l self candidate topNominations
  return (inTopAfter, self,
    l.putTop candidate topNominations)

/-- `decrease_bottom_nomination`.  Unlike its seven siblings it leaves the cached total of the
list as it was. -/
def decreaseBottomNomination (cfg : Config AccountId) (l : Ledger AccountId)
    (self : CandidateMetadata AccountId) (candidate nominator : AccountId) (less : ℕ) :
    Except Error (Bool × CandidateMetadata AccountId × Ledger AccountId) := do
  let bottomNominations ← okOr (l.bottomNominations.get candidate) .bottomNominationDNE
  ensure (∃ d ∈ bottomNominations.nominations, d.owner = nominator) .nominationDNE
  let bottomNominations : Nominations AccountId :=
    { bottomNominations with
      nominations := bottomNominations.nominations.map (setAmount nominator (· - less)) }
  let bottomNominations := bottomNominations.sortGreatestToLeast
  return (false, self.resetBottomData cfg bottomNominations,
    l.putBottom candidate bottomNominations)

/-- `decrease_nomination`. -/
def decreaseNomination (cfg : Config AccountId) (l : Ledger AccountId)
    (self : CandidateMetadata AccountId) (candidate nominator : AccountId) (bond less : ℕ) :
    Except Error (Bool × CandidateMetadata AccountId × Ledger AccountId) :=
  let lowestTopEqHighestBottom :=
    self.lowestTopNominationAmount = self.highestBottomNominationAmount
  let bondGeqLowestTop := self.lowestTopNominationAmount ≤ bond
  if bondGeqLowestTop ∧ ¬ lowestTopEqHighestBottom then
    decreaseTopNomination cfg l self candidate nominator bond less
  else if bondGeqLowestTop ∧ lowestTopEqHighestBottom then
    topElseBottom (decreaseTopNomination cfg l self candidate nominator bond less)
      (decreaseBottomNomination cfg l self candidate nominator less)
  else decreaseBottomNomination cfg l self candidate nominator less

end CandidateMetadata

end BifrostNode.Staking
