import BifrostNode.Lib.RankedList
import BifrostNode.Staking.Nominator

/-!
# The stake ledger

`Ledger` groups the storage items of `bfc-staking` that say who has staked how much on whom: the
candidates, the nominators, the two nomination lists of each candidate, the candidate pool, the
total, and the part of the currency the pallet reserves.  Every operation that moves stake is a
function on this record; sessions, rounds and selection come on top of it in
`BifrostNode/Staking/State.lean`.

**Currency.**  `reserve` fails when the free balance does not cover the amount, `unreserve` and
`slash_reserved` stop at what is reserved, and `deposit_into_existing` refuses accounts without
any balance.  `reserved` is what this pallet holds reserved, `others` what other pallets do.
-/

namespace BifrostNode.Staking

variable {AccountId : Type} [LinearOrder AccountId]

/-! ## Currency -/

/-- The balances of `pallet_balances` that this pallet reads and writes. -/
structure Currency (AccountId : Type) where
  free : AccountId → ℕ
  reserved : AccountId → ℕ
  others : AccountId → ℕ

namespace Currency

def canReserve (self : Currency AccountId) (who : AccountId) (value : ℕ) : Bool :=
  value ≤ self.free who

def reserve (self : Currency AccountId) (who : AccountId) (value : ℕ) :
    Except Error (Currency AccountId) := do
  ensure (value ≤ self.free who) .currency
  return { self with
    free := Function.update self.free who (self.free who - value)
    reserved := Function.update self.reserved who (self.reserved who + value) }

def unreserve (self : Currency AccountId) (who : AccountId) (value : ℕ) : Currency AccountId :=
  { self with
    free := Function.update self.free who (self.free who + min value (self.reserved who))
    reserved := Function.update self.reserved who (self.reserved who - value) }

def slashReserved (self : Currency AccountId) (who : AccountId) (value : ℕ) :
    Currency AccountId :=
  { self with reserved := Function.update self.reserved who (self.reserved who - value) }

def depositIntoExisting (self : Currency AccountId) (who : AccountId) (value : ℕ) :
    Option (Currency AccountId) :=
  if self.free who + self.reserved who + self.others who = 0 then none
  else some { self with free := Function.update self.free who (self.free who + value) }

/-- A successful reserve moves exactly the amount. -/
lemma reserve_eq_ok {self cur : Currency AccountId} {who : AccountId} {value : ℕ}
    (h : self.reserve who value = .ok cur) (a : AccountId) :
    cur.reserved a = self.reserved a + if a = who then value else 0 := by
  simp only [reserve, Transition.bind_eq_ok, Transition.ensure_eq_ok, Transition.pure_eq_ok] at h
  obtain ⟨-, -, rfl⟩ := h
  by_cases ha : a = who
  · subst ha; simp
  · simp [ha]

/-- A failing reserve fails for lack of balance. -/
lemma reserve_eq_error {self : Currency AccountId} {who : AccountId} {value : ℕ} {e : Error}
    (h : self.reserve who value = .error e) : e = .currency := by
  by_cases hle : value ≤ self.free who
  · rw [reserve, Transition.ensure_pos hle] at h
    cases h
  · rw [reserve, Transition.ensure_neg hle] at h
    exact (Except.error.inj h).symm

@[simp] lemma reserved_unreserve (self : Currency AccountId) (who : AccountId) (value : ℕ)
    (a : AccountId) :
    (self.unreserve who value).reserved a = self.reserved a - if a = who then value else 0 := by
  by_cases ha : a = who
  · subst ha; simp [unreserve]
  · simp [unreserve, ha]

@[simp] lemma reserved_slashReserved (self : Currency AccountId) (who : AccountId) (value : ℕ)
    (a : AccountId) :
    (self.slashReserved who value).reserved a =
      self.reserved a - if a = who then value else 0 := by
  by_cases ha : a = who
  · subst ha; simp [slashReserved]
  · simp [slashReserved, ha]

/-- A deposit does not touch the reserve. -/
lemma reserved_depositIntoExisting {self cur : Currency AccountId} {who : AccountId} {value : ℕ}
    (h : self.depositIntoExisting who value = some cur) : cur.reserved = self.reserved := by
  simp only [depositIntoExisting] at h
  split_ifs at h
  obtain rfl := Option.some.inj h
  rfl

end Currency

/-! ## The record -/

/-- The errors that the source drops after writing at most a log line: a nominator exit in which
one nomination could not be removed (marked `STORAGE CORRUPTED`), and a reward that could not be
compounded, with what the nominator's own record said about the nomination. -/
inductive Warning (AccountId : Type)
  | nominatorLeaving (nominator candidate : AccountId) (error : Error)
  | compounding (nominator candidate : AccountId) (nomination : Option ℕ) (error : Error)

structure Ledger (AccountId : Type) where
  candidateInfo : StorageMap AccountId (CandidateMetadata AccountId)
  nominatorState : StorageMap AccountId (Nominator AccountId)
  bondedStash : StorageMap AccountId AccountId
  topNominations : StorageMap AccountId (Nominations AccountId)
  bottomNominations : StorageMap AccountId (Nominations AccountId)
  candidatePool : StorageMap AccountId ℕ
  total : ℕ
  awardedTokens : ℕ
  currency : Currency AccountId
  warnings : List (Warning AccountId)

/-- `update_active`: the pool follows the voting power of a candidate that is in it. -/
def Ledger.updateActive (l : Ledger AccountId) (candidate : AccountId) (total : ℕ) :
    Ledger AccountId :=
  match l.candidatePool.get candidate with
  | none => l
  | some _ => { l with candidatePool := l.candidatePool.insert candidate total }

/-- `remove_from_candidate_pool`: whether there was something to remove. -/
def Ledger.removeFromCandidatePool (l : Ledger AccountId) (candidate : AccountId) :
    Bool × Ledger AccountId :=
  ((l.candidatePool.get candidate).isSome,
    { l with candidatePool := l.candidatePool.remove candidate })

/-! ## Nomination lists -/

namespace Nominations

/-- `Nominations::default`. -/
def default : Nominations AccountId := ⟨[], 0⟩

def nominators (self : Nominations AccountId) : List AccountId :=
  self.nominations.map fun n => n.owner

def count (self : Nominations AccountId) : ℕ := self.nominations.length

/-- `sort_greatest_to_least`. -/
def sortGreatestToLeast (self : Nominations AccountId) : Nominations AccountId :=
  { self with nominations := RankedList.sortDesc Bond.amount self.nominations }

/-- `insert_sorted_greatest_to_least`. -/
def insertSortedGreatestToLeast (self : Nominations AccountId) (nomination : Bond AccountId) :
    Nominations AccountId :=
  let found := RankedList.binarySearchBy (fun x : Bond AccountId =>
    compare nomination.amount x.amount) self.nominations
  { total := self.total + nomination.amount
    nominations := self.nominations.insertIdx
      (RankedList.insertionIndex Bond.amount nomination.amount self.nominations found)
      nomination }

/-- The shared body of `top_capacity` and `bottom_capacity`. -/
def capacity (self : Nominations AccountId) (max : ℕ) : CapacityStatus :=
  if max ≤ self.nominations.length then .full
  else if self.nominations.isEmpty then .empty
  else .partially

def topCapacity (cfg : Config AccountId) (self : Nominations AccountId) : CapacityStatus :=
  self.capacity cfg.maxTopNominationsPerCandidate

def bottomCapacity (cfg : Config AccountId) (self : Nominations AccountId) : CapacityStatus :=
  self.capacity cfg.maxBottomNominationsPerCandidate

def lowestNominationAmount (self : Nominations AccountId) : ℕ :=
  (self.nominations.getLast?.map fun x => x.amount).getD 0

def highestNominationAmount (self : Nominations AccountId) : ℕ :=
  (self.nominations.head?.map fun x => x.amount).getD 0

/-- The sum the cached total stands for. -/
def sum (self : Nominations AccountId) : ℕ := (self.nominations.map Bond.amount).sum

end Nominations

/-! ## Candidate records -/

namespace CandidateMetadata

/-- `CandidateMetadata::new`; the default commissions are storage values. -/
def new (defaultFull defaultBasic : Perbill) (stash : AccountId) (bond : ℕ) (tier : TierType) :
    CandidateMetadata AccountId where
  stash := stash
  bond := bond
  initialBond := bond
  nominationCount := 0
  votingPower := bond
  lowestTopNominationAmount := 0
  highestBottomNominationAmount := 0
  lowestBottomNominationAmount := 0
  topCapacity := .empty
  bottomCapacity := .empty
  request := none
  status := .active
  isSelected := false
  commission := if tier = .full then defaultFull else defaultBasic
  lastBlock := 0
  blocksProduced := 0
  productivity := .fromPercent 100
  productivityStatus := .idle
  rewardDst := .staked
  awardedTokens := 0
  tier := tier

def isActive (self : CandidateMetadata AccountId) : Bool := self.status = .active

def isKickedOut (self : CandidateMetadata AccountId) : Bool := self.status = .kickedOut

def isLeaving (self : CandidateMetadata AccountId) : Bool :=
  match self.status with
  | .leaving _ => true
  | _ => false

/-- `schedule_leave`. -/
def scheduleLeave (cfg : Config AccountId) (self : CandidateMetadata AccountId) (now : ℕ) :
    Except Error (CandidateMetadata AccountId) := do
  ensure (!self.isLeaving) .candidateAlreadyLeaving
  ensure self.request.isNone .pendingCandidateRequestAlreadyExists
  return { self with status := .leaving (now + cfg.leaveCandidatesDelay) }

/-- `can_leave`. -/
def canLeave (self : CandidateMetadata AccountId) (now : ℕ) : Except Error Unit :=
  match self.status with
  | .leaving w => ensure (w ≤ now) .candidateCannotLeaveYet
  | _ => .error .candidateNotLeaving

def goOffline (self : CandidateMetadata AccountId) : CandidateMetadata AccountId :=
  { self with status := .idle, isSelected := false }

def goOnline (self : CandidateMetadata AccountId) : CandidateMetadata AccountId :=
  { self with status := .active }

def kickOut (self : CandidateMetadata AccountId) : CandidateMetadata AccountId :=
  { self with status := .kickedOut, isSelected := false }

def slashBond (self : CandidateMetadata AccountId) (bond : ℕ) : CandidateMetadata AccountId :=
  { self with bond := self.bond - bond }

def slashVotingPower (self : CandidateMetadata AccountId) (votingPower : ℕ) :
    CandidateMetadata AccountId :=
  { self with votingPower := self.votingPower - votingPower }

/-- `decrement_productivity`. -/
def decrementProductivity (self : CandidateMetadata AccountId) (productivityPerBlock : Perbill) :
    CandidateMetadata AccountId :=
  { self with
    productivity :=
      if self.productivity.parts ≤ productivityPerBlock.parts then .zero
      else .fromParts (self.productivity.parts - productivityPerBlock.parts) }

def incrementAwardedTokens (self : CandidateMetadata AccountId) (tokens : ℕ) :
    CandidateMetadata AccountId :=
  { self with awardedTokens := self.awardedTokens + tokens }

/-- `reset_productivity`. -/
def resetProductivity (self : CandidateMetadata AccountId) : CandidateMetadata AccountId :=
  { self with productivity := .fromPercent 100, productivityStatus := .idle }

def setCommission (self : CandidateMetadata AccountId) (commission : Perbill) :
    CandidateMetadata AccountId :=
  { self with commission := commission }

def setIsSelected (self : CandidateMetadata AccountId) (isSelected : Bool) :
    CandidateMetadata AccountId :=
  { self with isSelected := isSelected }

def setLastBlock (self : CandidateMetadata AccountId) (lastBlock : ℕ) :
    CandidateMetadata AccountId :=
  { self with lastBlock := lastBlock }

def incrementBlocksProduced (self : CandidateMetadata AccountId) : CandidateMetadata AccountId :=
  { self with blocksProduced := self.blocksProduced + 1 }

def resetBlocksProduced (self : CandidateMetadata AccountId) : CandidateMetadata AccountId :=
  { self with blocksProduced := 0 }

/-- The self-bond that a candidate of the given tier has to keep. -/
def minCandidateStk (cfg : Config AccountId) (tier : TierType) : ℕ :=
  if tier = .full then cfg.minFullCandidateStk else cfg.minBasicCandidateStk

/-- `bond_more`: reserve, raise the bond and the voting power, raise the total. -/
def bondMore (l : Ledger AccountId) (self : CandidateMetadata AccountId) (stash : AccountId)
    (more : ℕ) : Except Error (CandidateMetadata AccountId × Ledger AccountId) := do
  let currency ← l.currency.reserve stash more
  return ({ self with bond := self.bond + more, votingPower := self.votingPower + more },
    { l with currency := currency, total := l.total + more })

/-- `schedule_bond_less`. -/
def scheduleBondLess (cfg : Config AccountId) (self : CandidateMetadata AccountId) (now less : ℕ) :
    Except Error (CandidateMetadata AccountId) := do
  ensure self.request.isNone .pendingCandidateRequestAlreadyExists
  ensure (less < self.bond) .candidateBondBelowMin
  ensure (minCandidateStk cfg self.tier ≤ self.bond - less) .candidateBondBelowMin
  return { self with request := some ⟨less, now + cfg.candidateBondLessDelay⟩ }

/-- The metadata after a decrease of the self-bond. -/
def lessBond (self : CandidateMetadata AccountId) (amount : ℕ) : CandidateMetadata AccountId :=
  { self with
    bond := self.bond - amount
    votingPower := self.votingPower - amount
    request := none }

/-- `execute_bond_less`. -/
def executeBondLess (l : Ledger AccountId) (self : CandidateMetadata AccountId) (now : ℕ)
    (stash controller : AccountId) :
    Except Error (CandidateMetadata AccountId × Ledger AccountId) := do
  let request ← okOr self.request .pendingCandidateRequestsDNE
  ensure (request.whenExecutable ≤ now) .pendingCandidateRequestNotDueYet
  let self := self.lessBond request.amount
  let l := { l with
    currency := l.currency.unreserve stash request.amount
    total := l.total - request.amount }
  return (self, l.updateActive controller self.votingPower)

/-- `cancel_bond_less`. -/
def cancelBondLess (self : CandidateMetadata AccountId) :
    Except Error (CandidateMetadata AccountId) := do
  let _ ← okOr self.request .pendingCandidateRequestsDNE
  return { self with request := none }

end CandidateMetadata

end BifrostNode.Staking
