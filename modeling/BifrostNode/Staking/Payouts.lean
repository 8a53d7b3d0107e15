import BifrostNode.Staking.CandidateCalls

/-!
# Reward payouts

Rewards of round `r` are prepared when round `r + RewardPaymentDelay` starts and are paid during
that round, one block author per block, from the points and the snapshots that were recorded in
round `r`.

Payouts run in a hook, outside any transaction.  A value of type `Option` is what a hook leaves
behind: `none` stands for a panic, which no block survives.  `AwardedPts` is drained in an order
the pallet does not choose, so the account that the iterator yields next is an argument.
-/

namespace BifrostNode.Staking

variable {AccountId R : Type} [LinearOrder AccountId]

/-! ## Paying one account -/

namespace Ledger

/-- `mint_reward`. -/
def mintReward (l : Ledger AccountId) (amount : ℕ) (dest : AccountId) : Ledger AccountId :=
  match l.currency.depositIntoExisting dest amount with
  | none => l
  | some currency =>
      { l with currency := currency, awardedTokens := l.awardedTokens + amount }

/-- `handle_validator_reward_payout`. -/
def handleValidatorRewardPayout (l : Ledger AccountId) (controller stash : AccountId)
    (reward : ℕ) : Except Error (Ledger AccountId) :=
  match l.candidateInfo.get controller with
  | none => .ok l
  | some validatorState =>
      let l := l.mintReward reward stash
      let validatorState := validatorState.incrementAwardedTokens reward
      match validatorState.rewardDst with
      | .staked => do
          let (validatorState, l) ← validatorState.bondMore l validatorState.stash reward
          let l := l.updateActive controller validatorState.votingPower
          return { l with candidateInfo := l.candidateInfo.insert controller validatorState }
      | .account =>
          .ok { l with candidateInfo := l.candidateInfo.insert controller validatorState }

/-- `handle_nominator_reward_payout`.  A reward that cannot be compounded stays in the free
balance, and the record of the nominator is not written. -/
def handleNominatorRewardPayout (cfg : Config AccountId) (l : Ledger AccountId)
    (controller nominator : AccountId) (reward : ℕ) : Ledger AccountId :=
  match l.nominatorState.get nominator with
  | none => l
  | some nominatorState =>
      if nominatorState.isActive ∧ ¬ nominatorState.isRevoking controller ∧
          ¬ nominatorState.isDecreasing controller then
        let l := l.mintReward reward nominator
        let nominatorState := nominatorState.incrementAwardedTokens controller reward
        match nominatorState.rewardDst with
        | .staked =>
            match nominatorState.increaseNomination cfg l controller reward with
            | (.ok nominatorState, l) =>
                { l with nominatorState := l.nominatorState.insert nominator nominatorState }
            | (.error e, l) =>
                { l with
                  warnings := .compounding nominator controller
                    (nominatorState.nominations.get controller) e :: l.warnings }
        | .account =>
            { l with nominatorState := l.nominatorState.insert nominator nominatorState }
      else l

/-- The loop of `pay_one_validator_reward` over the nominations of the snapshot. -/
def payNominators (cfg : Config AccountId) (validator : AccountId) (total amountDue : ℕ)
    (l : Ledger AccountId) (nominations : List (Bond AccountId)) : Ledger AccountId :=
  nominations.foldl (fun l bond =>
    let nominatorReward := (Perbill.fromRational bond.amount total).mul amountDue
    if nominatorReward = 0 then l
    else l.handleNominatorRewardPayout cfg validator bond.owner nominatorReward) l

/-- The body of `pay_one_validator_reward` once the validator is known to be a candidate: the
total reward and the ledger after the payments.  The subtraction of the commission is
unchecked. -/
def payValidator (cfg : Config AccountId) (l : Ledger AccountId) (validator : AccountId)
    (state : CandidateMetadata AccountId) (payoutInfo : DelayedPayout) (pts totalPoints : ℕ)
    (snapshot : ValidatorSnapshot AccountId) : Option (ℕ × Ledger AccountId) :=
  let validatorIssuance := state.commission.mul payoutInfo.roundIssuance
  let validatorContributionPct := Perbill.fromRational pts totalPoints
  let totalRewardAmount := validatorContributionPct.mul payoutInfo.totalStakingReward
  if snapshot.nominations.isEmpty then
    -- solo validator with no nominators
    (l.handleValidatorRewardPayout validator state.stash totalRewardAmount).toOption.map fun l =>
      (totalRewardAmount, l)
  else
    let validatorStakePct := Perbill.fromRational snapshot.bond snapshot.total
    let commission := validatorContributionPct.mul validatorIssuance
    let amountDue := wrappingSub totalRewardAmount commission
    let validatorReward := validatorStakePct.mul amountDue + commission
    (l.handleValidatorRewardPayout validator state.stash validatorReward).toOption.map fun l =>
      (totalRewardAmount, l.payNominators cfg validator snapshot.total amountDue
        snapshot.nominations)

end Ledger

/-! ## Rounds to pay -/

namespace State

/-- `compute_issuance`. -/
def computeIssuance (s : State AccountId R) (staked : ℕ) : ℕ :=
  let config := s.params.inflationConfig
  if staked ≤ config.expect.min then config.round.max.mul staked
  else if config.expect.max ≤ staked then config.round.min.mul staked
  else config.round.ideal.mul staked

/-- `prepare_staking_payouts`. -/
def prepareStakingPayouts (cfg : Config AccountId) (s : State AccountId R) (now : ℕ) :
    State AccountId R :=
  let roundToPayout := now - cfg.rewardPaymentDelay
  if now ≤ cfg.rewardPaymentDelay then s
  else if s.rewards.points.getD roundToPayout 0 = 0 then s
  else
    let roundIssuance := s.computeIssuance (s.rewards.staked.getD roundToPayout 0)
    { s with rewards := { s.rewards with
        staked := s.rewards.staked.remove roundToPayout
        delayedPayouts := s.rewards.delayedPayouts.insert roundToPayout
          ⟨roundIssuance, roundIssuance, s.params.defaultBasicValidatorCommission⟩ } }

/-- The accounts with points in a round. -/
def authors (s : State AccountId R) (round : ℕ) : Finset AccountId :=
  (s.rewards.awardedPts.keys.filter fun k => k.1 = round).image Prod.snd

/-- The entries of `AwardedPts` and `AtStake` that a payout takes out. -/
def takeAwarded (s : State AccountId R) (round : ℕ) (validator : AccountId) :
    State AccountId R :=
  { s with rewards := { s.rewards with
      awardedPts := s.rewards.awardedPts.remove (round, validator) } }

def takeAtStake (s : State AccountId R) (round : ℕ) (validator : AccountId) :
    State AccountId R :=
  { s with rewards := { s.rewards with
      atStake := s.rewards.atStake.remove (round, validator) } }

/-- The snapshot of a validator in a round; an absent one reads as the default. -/
def snapshot (s : State AccountId R) (round : ℕ) (validator : AccountId) :
    ValidatorSnapshot AccountId :=
  s.rewards.atStake.getD (round, validator) .default

/-- `pay_one_validator_reward`: the validator that was paid and the total paid, or nothing.
`drained` is what `AwardedPts` yields; it has to be an author of the round, if there is one. -/
def payOneValidatorReward (cfg : Config AccountId) (s : State AccountId R) (roundToPayout : ℕ)
    (payoutInfo : DelayedPayout) (drained : Option AccountId) :
    Option (Option (AccountId × ℕ) × State AccountId R) :=
  let totalPoints := s.rewards.points.getD roundToPayout 0
  if totalPoints = 0 then some (none, s)
  else
    match drained with
    | none => if s.authors roundToPayout = ∅ then some (none, s) else none
    | some validator =>
        match s.rewards.awardedPts.get (roundToPayout, validator) with
        | none => none
        | some pts =>
            match s.ledger.candidateInfo.get validator with
            -- the entry is gone, but nothing was paid
            | none => some (none, s.takeAwarded roundToPayout validator)
            | some state =>
                (s.ledger.payValidator cfg validator state payoutInfo pts totalPoints
                  (s.snapshot roundToPayout validator)).map fun (paid, l) =>
                    (some (validator, paid), ((s.takeAwarded roundToPayout validator).takeAtStake
                      roundToPayout validator).withLedger l)

/-- The clean-up of `handle_delayed_payouts`. -/
def closePayout (s : State AccountId R) (round : ℕ) : State AccountId R :=
  { s with rewards := { s.rewards with
      delayedPayouts := s.rewards.delayedPayouts.remove round
      points := s.rewards.points.remove round } }

/-- `handle_delayed_payouts`: a block in which nothing was paid closes the round. -/
def handleDelayedPayouts (cfg : Config AccountId) (s : State AccountId R) (now : ℕ)
    (drained : Option AccountId) : Option (Option (AccountId × ℕ) × State AccountId R) :=
  let roundToPayout := now - cfg.rewardPaymentDelay
  if now < cfg.rewardPaymentDelay then some (none, s)
  else
    match s.rewards.delayedPayouts.get roundToPayout with
    | none => some (none, s)
    | some payoutInfo =>
        (s.payOneValidatorReward cfg roundToPayout payoutInfo drained).map fun (paid, s) =>
          (paid, if paid.isNone then s.closePayout roundToPayout else s)

end State

end BifrostNode.Staking
