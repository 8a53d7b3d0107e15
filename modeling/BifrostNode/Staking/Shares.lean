import BifrostNode.Staking.Controllers
import BifrostNode.Staking.PayoutSpec

/-!
# What a payout pays

`Shares` is the part of a payout that does not depend on balances: what the validator gets, and what
each nominator of its snapshot gets.  `Ledger.payShares` pays them out.

**Panics.**  The reward of a validator is minted without looking at the outcome, and is then reserved
if the validator compounds it.  An account without any balance cannot be minted to, so the reserve
fails and the block with it (`payouts_return_iff`).
-/

namespace BifrostNode.Staking

open Transition

variable {AccountId R : Type} [LinearOrder AccountId]

/-! ## Shares -/

/-- The amounts that `pay_one_validator_reward` assigns. -/
structure Shares (AccountId : Type) where
  total : ℕ
  validator : ℕ
  nominators : List (AccountId × ℕ)
  deriving DecidableEq

/-- The amounts, from the commission of the validator, the payout of the round, the points and the
snapshot. -/
def Shares.of (commission : Perbill) (info : DelayedPayout) (pts totalPoints : ℕ)
    (snapshot : ValidatorSnapshot AccountId) : Shares AccountId :=
  let contribution := Perbill.fromRational pts totalPoints
  let total := contribution.mul info.totalStakingReward
  if snapshot.nominations.isEmpty then ⟨total, total, []⟩
  else
    let commission := contribution.mul (commission.mul info.roundIssuance)
    let due := wrappingSub total commission
    ⟨total, (Perbill.fromRational snapshot.bond snapshot.total).mul due + commission,
      snapshot.nominations.map fun bond =>
        (bond.owner, (Perbill.fromRational bond.amount snapshot.total).mul due)⟩

/-- The payments; `none` is a panic. -/
def Ledger.payShares (cfg : Config AccountId) (l : Ledger AccountId) (validator stash : AccountId)
    (shares : Shares AccountId) : Option (Ledger AccountId) :=
  (l.handleValidatorRewardPayout validator stash shares.validator).toOption.map fun l =>
    shares.nominators.foldl (fun l share =>
      if share.2 = 0 then l
      else l.handleNominatorRewardPayout cfg validator share.1 share.2) l

/-- A payout pays the shares. -/
lemma Ledger.payValidator_eq (cfg : Config AccountId) (l : Ledger AccountId) (v : AccountId)
    (m : CandidateMetadata AccountId) (info : DelayedPayout) (pts totalPoints : ℕ)
    (snapshot : ValidatorSnapshot AccountId) :
    l.payValidator cfg v m info pts totalPoints snapshot =
      (l.payShares cfg v m.stash (.of m.commission info pts totalPoints snapshot)).map fun l =>
        ((Shares.of m.commission info pts totalPoints snapshot).total, l) := by
  simp only [payValidator, payShares, Shares.of]
  split_ifs with hsolo
  · simp only [Option.map_map]
    rfl
  · simp only [Option.map_map, List.foldl_map]
    rfl

/-- The shares of a validator in a round, if it is a candidate and a payout of the round is due. -/
def State.shares (s : State AccountId R) (r : ℕ) (v : AccountId) : Option (Shares AccountId) := do
  let info ← s.due r
  let m ← s.ledger.candidateInfo.get v
  return .of m.commission info (s.pointsOf r v) (s.rewards.points.getD r 0) (s.snapshot r v)

/-! ## When a payment panics -/

section Panics

variable {cfg : Config AccountId} {rm : RelayManager AccountId R} {s : State AccountId R}

/-- The whole balance of an account. -/
def Currency.totalBalance (self : Currency AccountId) (who : AccountId) : ℕ :=
  self.free who + self.reserved who + self.others who

/-- What is free after a reward has been minted, or not. -/
lemma Ledger.free_mintReward (l : Ledger AccountId) (amount : ℕ) (dest : AccountId) :
    (l.mintReward amount dest).currency.free dest =
      if l.currency.totalBalance dest = 0 then 0 else l.currency.free dest + amount := by
  rw [mintReward, Currency.depositIntoExisting, Currency.totalBalance]
  split_ifs with hzero
  · show l.currency.free dest = 0
    omega
  · exact Function.update_self ..

/-- A reserve succeeds when the free balance covers it. -/
lemma CandidateMetadata.bondMore_isSome (l : Ledger AccountId) (m : CandidateMetadata AccountId)
    (stash : AccountId) (more : ℕ) :
    (m.bondMore l stash more).toOption.isSome ↔ more ≤ l.currency.free stash := by
  rw [bondMore, Currency.reserve]
  by_cases hle : more ≤ l.currency.free stash
  · rw [ensure_pos hle]
    exact iff_of_true rfl hle
  · rw [ensure_neg hle]
    exact iff_of_false Bool.false_ne_true hle

/-- The reward of a validator can be paid unless it is compounded into an account without balance. -/
lemma Ledger.handleValidatorRewardPayout_isSome {l : Ledger AccountId} {v : AccountId}
    {m : CandidateMetadata AccountId} (hm : l.candidateInfo.get v = some m) (reward : ℕ) :
    (l.handleValidatorRewardPayout v m.stash reward).toOption.isSome ↔
      (m.rewardDst = .staked → l.currency.totalBalance m.stash = 0 → reward = 0) := by
  rw [handleValidatorRewardPayout, hm]
  dsimp only [CandidateMetadata.incrementAwardedTokens]
  cases hdst : m.rewardDst with
  | account =>
      refine iff_of_true rfl ?_
      rintro ⟨⟩
  | staked =>
      have hbond := CandidateMetadata.bondMore_isSome (l.mintReward reward m.stash)
        { m with rewardDst := .staked, awardedTokens := m.awardedTokens + reward } m.stash reward
      rw [Ledger.free_mintReward] at hbond
      have hleft : reward ≤ (if l.currency.totalBalance m.stash = 0 then 0
          else l.currency.free m.stash + reward) ↔
          (l.currency.totalBalance m.stash = 0 → reward = 0) := by
        split_ifs with hzero
        · simp [hzero]
        · simp [hzero]
      simp only [true_implies]
      rw [← hleft, ← hbond]
      cases CandidateMetadata.bondMore (l.mintReward reward m.stash) _ m.stash reward <;> rfl

/-- What `AwardedPts` may yield for a round. -/
def State.Yields (s : State AccountId R) (r : ℕ) : Option AccountId → Prop
  | none => s.authors r = ∅
  | some v => v ∈ s.authors r

/-- The validator that is drained compounds a reward into a stash that has no balance. -/
def State.Unpayable (cfg : Config AccountId) (s : State AccountId R) (drained : Option AccountId) :
    Prop :=
  ∃ v m shares, drained = some v ∧ s.ledger.candidateInfo.get v = some m ∧
    m.rewardDst = .staked ∧ s.ledger.currency.totalBalance m.stash = 0 ∧
    s.shares (s.payoutRound cfg) v = some shares ∧ shares.validator ≠ 0

omit [LinearOrder AccountId] in
/-- The shares of a candidate. -/
lemma State.shares_eq {r : ℕ} {v : AccountId} {info : DelayedPayout}
    {m : CandidateMetadata AccountId} (hdue : s.due r = some info)
    (hm : s.ledger.candidateInfo.get v = some m) :
    s.shares r v = some (.of m.commission info (s.pointsOf r v) (s.rewards.points.getD r 0)
      (s.snapshot r v)) := by
  rw [State.shares, hdue, Option.bind_eq_bind, Option.bind_some, hm]
  rfl

/-- A payout of one validator that is a candidate. -/
lemma State.payOneValidatorReward_isSome {r : ℕ} {v : AccountId} {info : DelayedPayout}
    {m : CandidateMetadata AccountId} {shares : Shares AccountId} (hv : v ∈ s.authors r)
    (hpoints : s.rewards.points.getD r 0 ≠ 0) (hdue : s.due r = some info)
    (hm : s.ledger.candidateInfo.get v = some m) (hshares : s.shares r v = some shares) :
    (s.payOneValidatorReward cfg r info (some v)).isSome ↔
      (m.rewardDst = .staked → s.ledger.currency.totalBalance m.stash = 0 →
        shares.validator = 0) := by
  obtain ⟨pts, hpts⟩ := State.mem_authors.mp hv
  rw [State.shares_eq hdue hm, State.pointsOf, StorageMap.getD, hpts] at hshares
  obtain rfl := Option.some.inj hshares
  rw [← Ledger.handleValidatorRewardPayout_isSome hm]
  simp only [State.payOneValidatorReward, if_neg hpoints, hpts, hm, Ledger.payValidator_eq,
    Ledger.payShares, Option.isSome_map, Option.getD_some]

/-- **Payouts halt the chain** exactly when the validator that is drained compounds a reward into a
stash that has no balance. -/
theorem payouts_return_iff {n : ℕ} {drained : Option AccountId} (h : ReachableIf cfg rm anyStep s)
    (hyields : (s.due (s.payoutRound cfg)).isSome → s.Yields (s.payoutRound cfg) drained) :
    (s.onInitialize cfg n drained).isSome ↔ ¬ s.Unpayable cfg drained := by
  obtain ⟨snapshot, hsnap⟩ := Option.isSome_iff_exists.mp h.inv.ledger.totalSnapshot_isSome
  let s₁ : State AccountId R := { s with
    round := s.round.updateBlock n
    rewards := { s.rewards with totalAtStake := s.rewards.totalAtStake.insert s.now snapshot } }
  have hinit : s.onInitialize cfg n drained = s₁.handleDelayedPayouts cfg s.now drained := by
    have hsnap' : ({ s with round := s.round.updateBlock n } : State AccountId R).totalSnapshot =
        some snapshot := hsnap
    simp only [State.onInitialize, State.refreshTotalSnapshot, hsnap', Option.map_some,
      Option.bind_eq_bind, Option.bind_some]
    rfl
  rw [hinit]
  cases hdue : s.due (s.payoutRound cfg) with
  | none =>
      -- nothing is due
      have hidle : s₁.handleDelayedPayouts cfg s.now drained = some (none, s₁) := by
        have hget : s₁.rewards.delayedPayouts.get (s.now - cfg.rewardPaymentDelay) = none := hdue
        simp only [State.handleDelayedPayouts, hget, ite_self]
      rw [hidle]
      refine iff_of_true rfl ?_
      rintro ⟨v, m, shares, -, -, -, -, hshares, -⟩
      rw [State.shares, hdue] at hshares
      cases hshares
  | some info =>
      obtain ⟨hround, -, hpoints⟩ := h.timely.due _ (Option.isSome_iff_exists.mpr ⟨info, hdue⟩)
      replace hyields := hyields (Option.isSome_iff_exists.mpr ⟨info, hdue⟩)
      have hpay : (s₁.handleDelayedPayouts cfg s.now drained).isSome ↔
          (s₁.payOneValidatorReward cfg (s.payoutRound cfg) info drained).isSome := by
        have hget : s₁.rewards.delayedPayouts.get (s.now - cfg.rewardPaymentDelay) = some info :=
          hdue
        have hlate : ¬ s.now < cfg.rewardPaymentDelay := by omega
        simp only [State.handleDelayedPayouts, hget, if_neg hlate, Option.isSome_map,
          State.payoutRound]
      rw [hpay]
      cases drained with
      | none =>
          have hempty : s₁.authors (s.payoutRound cfg) = ∅ := hyields
          have hpoints' : s₁.rewards.points.getD (s.payoutRound cfg) 0 ≠ 0 := hpoints
          refine iff_of_true ?_ ?_
          · simp only [State.payOneValidatorReward, if_neg hpoints', hempty, if_true,
              Option.isSome_some]
          · rintro ⟨v, m, shares, hnone, -⟩
            cases hnone
      | some v =>
          cases hm : s.ledger.candidateInfo.get v with
          | none =>
              -- who is no candidate is not paid
              obtain ⟨pts, hpts⟩ := State.mem_authors.mp hyields
              have hpts' : s₁.rewards.awardedPts.get (s.payoutRound cfg, v) = some pts := hpts
              have hm' : s₁.ledger.candidateInfo.get v = none := hm
              refine iff_of_true ?_ ?_
              · simp only [State.payOneValidatorReward, hpts', hm']
                split_ifs <;> rfl
              · rintro ⟨w, m, shares, hw, hmw, -⟩
                obtain rfl := Option.some.inj hw
                rw [hm] at hmw
                cases hmw
          | some m =>
              obtain ⟨shares, hshares⟩ : ∃ shares, s.shares (s.payoutRound cfg) v = some shares :=
                ⟨_, State.shares_eq hdue hm⟩
              have hone : (s₁.payOneValidatorReward cfg (s.payoutRound cfg) info
                  (some v)).isSome ↔ (m.rewardDst = .staked →
                    s.ledger.currency.totalBalance m.stash = 0 → shares.validator = 0) :=
                State.payOneValidatorReward_isSome (s := s₁) hyields hpoints hdue hm hshares
              rw [hone]
              constructor
              · rintro hcond ⟨w, m', shares', hw, hm', hdst, hzero, hshares', hne⟩
                obtain rfl := Option.some.inj hw
                obtain rfl := Option.some.inj (hm.symm.trans hm')
                obtain rfl := Option.some.inj (hshares.symm.trans hshares')
                exact hne (hcond hdst hzero)
              · intro hpayable hdst hzero
                by_contra hne
                exact hpayable ⟨v, m, shares, rfl, hm, hdst, hzero, hshares, hne⟩

end Panics

/-- Account 2 has authored in round 1 and is paid in round 2. -/
theorem payouts_return_devnet : ∃ s : State ℕ Unit, ReachableIf devnet devnetRelays anyStep s ∧
    s.Yields (s.payoutRound devnet) (some 2) ∧ (s.shares (s.payoutRound devnet) 2).isSome ∧
    (s.onInitialize devnet 21 (some 2)).isSome := by
  have hrun : (devnetRun [.noteAuthor 2, .newSession 20 2 [] (fun _ => true)]).any (fun s =>
      decide (2 ∈ s.authors (s.payoutRound devnet) ∧
        (s.shares (s.payoutRound devnet) 2).isSome ∧
        (s.ledger.candidateInfo.get 2).all fun m =>
          s.ledger.currency.totalBalance m.stash ≠ 0)) = true := by decide
  obtain ⟨s, hs, hP⟩ := devnetRun_exists hrun
  obtain ⟨hv, hshares, hbalance⟩ := of_decide_eq_true hP
  have hyields : s.Yields (s.payoutRound devnet) (some 2) := hv
  refine ⟨s, hs, hv, hshares, (payouts_return_iff hs fun _ => hyields).mpr ?_⟩
  rintro ⟨v, m, shares, hw, hm, -, hzero, -⟩
  obtain rfl := Option.some.inj hw
  rw [hm, Option.all_some, decide_eq_true_eq] at hbalance
  exact hbalance hzero

/-- **A payout that panics.**  Account 2 has authored in round 1, its stash has spent its free
balance, and four offences have slashed its whole bond. -/
theorem payouts_panic : ∃ s : State ℕ Unit, ReachableIf devnet devnetRelays anyStep s ∧
    s.Yields (s.payoutRound devnet) (some 2) ∧ s.onInitialize devnet 21 (some 2) = none := by
  have hrun : (devnetRun [.noteAuthor 2,
      .balances (fun a => if a = 1 then 0 else 10000) (fun _ => 0),
      .onOffence [(2, .fromPercent 100)] 1, .onOffence [(2, .fromPercent 100)] 1,
      .onOffence [(2, .fromPercent 100)] 1, .onOffence [(2, .fromPercent 100)] 1,
      .newSession 20 2 [] (fun _ => true)]).any (fun s =>
        decide (2 ∈ s.authors (s.payoutRound devnet) ∧
          (s.onInitialize devnet 21 (some 2)).isNone)) = true := by decide
  obtain ⟨s, hs, hP⟩ := devnetRun_exists hrun
  obtain ⟨hv, hnone⟩ := of_decide_eq_true hP
  exact ⟨s, hs, hv, Option.isNone_iff_eq_none.mp hnone⟩

end BifrostNode.Staking
