import BifrostNode.Staking.Shares

/-!
# Past rewards

When a round ends, the points and the snapshots of the round are final, but its payouts still read the
commission of the validator when they pay, and the inflation settings when they are prepared.

**What is fixed.**  A validator and its nominators get the same shares of a round in any two runs that
agree up to the end of the round, as long as later steps leave these terms alone (`Step.KeepsTerms`).
-/

namespace BifrostNode.Staking

open Transition

variable {AccountId R : Type} [LinearOrder AccountId]

/-! ## The end of a round -/

section EndOfRound

variable {cfg : Config AccountId} {rm : RelayManager AccountId R} {s s' : State AccountId R}

/-- The points after a controller change at the start of round `now`. -/
def movePts (now : ℕ) (pts : StorageMap (ℕ × AccountId) ℕ) (c : DelayedControllerSet AccountId) :
    StorageMap (ℕ × AccountId) ℕ :=
  let take (m : StorageMap (ℕ × AccountId) ℕ) (round : ℕ) :=
    (m.remove (round, c.old)).insert (round, c.new) (m.getD (round, c.old) 0)
  take (take pts now) (now - 1)

/-- The points after the controller changes of a round. -/
lemma State.applyControllerSets_awarded {now : ℕ} :
    ∀ {cs : List (DelayedControllerSet AccountId)} {s : State AccountId R},
      LedgerInv cfg s.ledger → Pending s.ledger cs →
      (cs.foldl (State.applyControllerSet rm now) s).rewards.awardedPts =
        cs.foldl (movePts now) s.rewards.awardedPts := by
  intro cs
  induction cs with
  | nil => exact fun _ _ => rfl
  | cons c cs ih =>
      intro s hl hp
      obtain ⟨m, top, bottom, hm, hren, hbal⟩ := State.applyControllerSet_renamed hl hp
      have hone : (s.applyControllerSet rm now c).rewards.awardedPts =
          movePts now s.rewards.awardedPts c := by
        simp only [State.applyControllerSet, hm]
        rfl
      rw [List.foldl_cons, ih (hbal.inv hl) (hp.tail hren), hone, List.foldl_cons]

lemma State.collectValidatorSnapshot_staked {now : ℕ} {validators : List AccountId}
    {counts : ℕ × ℕ × ℕ} (h : s.collectValidatorSnapshot now validators = some (counts, s')) :
    s'.rewards.staked = s.rewards.staked ∧ s'.params = s.params := by
  refine foldlM_invariant (P := fun acc => acc.2.rewards.staked = s.rewards.staked ∧
    acc.2.params = s.params) (fun acc v acc' hacc hv => ?_) h ⟨rfl, rfl⟩
  simp only [State.countSnapshot, Option.bind_eq_bind, Option.bind_eq_some_iff, Option.pure_def,
    Option.some.injEq] at hv
  obtain ⟨m, -, top, -, rfl⟩ := hv
  exact hacc

omit [LinearOrder AccountId] in
lemma State.computeIssuance_congr (h : s'.params.inflationConfig = s.params.inflationConfig)
    (staked : ℕ) : s'.computeIssuance staked = s.computeIssuance staked := by
  simp only [State.computeIssuance, h]

omit [LinearOrder AccountId] in
/-- A payout is prepared from the rewards and the settings. -/
lemma State.prepareStakingPayouts_congr (hr : s'.rewards = s.rewards) (hp : s'.params = s.params)
    (now : ℕ) :
    (s'.prepareStakingPayouts cfg now).rewards = (s.prepareStakingPayouts cfg now).rewards := by
  have hissue := State.computeIssuance_congr (congrArg Params.inflationConfig hp)
  simp only [State.prepareStakingPayouts, hissue, hr, hp]
  split_ifs
  · exact hr
  · exact hr
  · rfl

/-- The totals when the snapshots of a new round have been taken. -/
lemma State.selectForRound_booked {round : RoundInfo} {full basic : List AccountId} {count : ℕ}
    (h : s.selectForRound cfg rm round full basic = some (count, s')) :
    s'.rewards.staked = (s.prepareStakingPayouts cfg round.currentRoundIndex).rewards.staked ∧
      ∀ r, s'.due r = (s.prepareStakingPayouts cfg round.currentRoundIndex).due r := by
  simp only [State.selectForRound, Option.bind_eq_bind, Option.bind_eq_some_iff, Option.pure_def,
    Option.some.injEq, Prod.exists, Prod.mk.injEq] at h
  obtain ⟨validators, nominations, stake, s₁, h₁, -, rfl⟩ := h
  let s₀ : State AccountId R := { s with
    relay := rm.handleDelayedRelayerSets (rm.refreshRound s.relay round.currentRoundIndex)
      round.currentRoundIndex
    ledger := s.ledger.resetCandidateStates }
  -- relayers and candidate records play no part in the preparation
  have hprep : (s₀.prepareStakingPayouts cfg round.currentRoundIndex).rewards =
      (s.prepareStakingPayouts cfg round.currentRoundIndex).rewards := by
    apply State.prepareStakingPayouts_congr
    · rfl
    · rfl
  have hsnap := State.updateTopCandidates_snapshotted h₁
  simp only [State.updateTopCandidates, Option.bind_eq_bind, Option.bind_eq_some_iff,
    Option.pure_def, Option.some.injEq, Prod.exists, Prod.mk.injEq] at h₁
  obtain ⟨c₁, c₂, c₃, t₁, ht₁, d₁, d₂, d₃, t₂, ht₂, -, rfl⟩ := h₁
  refine ⟨?_, fun r => ?_⟩
  · rw [← hprep]
    exact (State.collectValidatorSnapshot_staked ht₂).1.trans
      (State.collectValidatorSnapshot_staked ht₁).1
  · rw [State.due, hsnap.due, State.due, ← hprep]

lemma State.applyControllerSets_staked (rm : RelayManager AccountId R) (now : ℕ) :
    ∀ (cs : List (DelayedControllerSet AccountId)) (s : State AccountId R),
      (cs.foldl (State.applyControllerSet rm now) s).rewards.staked = s.rewards.staked := by
  intro cs
  induction cs with
  | nil => exact fun _ => rfl
  | cons c cs ih =>
      intro s
      have hone : (s.applyControllerSet rm now c).rewards.staked = s.rewards.staked := by
        simp only [State.applyControllerSet]
        cases s.ledger.candidateInfo.get c.old <;> rfl
      rw [List.foldl_cons, ih, hone]

/-- **What the end of a round does to its rewards**: a payout may be prepared, and points follow the
controllers. -/
structure Ended (cfg : Config AccountId) (s s' : State AccountId R) : Prop
    extends Turned cfg s s' where
  staked : ∀ r, r ≠ s.now + 1 → s'.rewards.staked.getD r 0 =
    (s.prepareStakingPayouts cfg (s.now + 1)).rewards.staked.getD r 0
  prepared : ∀ r, s'.due r = (s.prepareStakingPayouts cfg (s.now + 1)).due r
  moved : s'.rewards.awardedPts = s.controllerSets.foldl (movePts (s.now + 1)) s.rewards.awardedPts

lemma State.newRound_ended {now : ℕ} {full basic : List AccountId} (hs : StateInv cfg s)
    (hq : Qualified s.ledger full basic) (h : s.newRound cfg rm now full basic = some s') :
    Ended cfg s s' := by
  have hturned := State.newRound_turned h
  simp only [State.newRound, Option.map_eq_some_iff, Prod.exists] at h
  obtain ⟨count, s₁, h₁, rfl⟩ := h
  let s₃ : State AccountId R := (s₁.startRound rm (s.round.updateRound s.session now)
    count).handleDelayedCommissionSets (s.now + 1)
  let s₄ : State AccountId R :=
    { s₃ with delayedControllerSets := s₃.delayedControllerSets.remove (s.now + 1 - 1) }
  obtain ⟨hinv, hpending, -, -⟩ := State.selectForRound_midway hs hq h₁ rfl
  obtain ⟨hstaked, hdue⟩ := State.selectForRound_booked h₁
  obtain ⟨-, hawarded, -⟩ := State.selectForRound_rewards h₁
  have hround : (s.round.updateRound s.session now).currentRoundIndex = s.now + 1 := rfl
  rw [hround] at hstaked hdue
  have hsets : s₃.delayedControllerSets.getD (s.now + 1 - 1) [] = s.controllerSets := by
    have hprep : Prepares cfg s s₁ := State.selectForRound_prepares h₁
    have hsame : s₃.delayedControllerSets = s.delayedControllerSets := hprep.sets
    rw [hsame, Nat.add_sub_cancel]
    rfl
  obtain ⟨-, hpayouts, -⟩ := State.applyControllerSets_rewards rm (s.now + 1)
    (s₃.delayedControllerSets.getD (s.now + 1 - 1) []) s₄
  have henter : s₁.enterRound rm (s.round.updateRound s.session now) count =
      (s₃.delayedControllerSets.getD (s.now + 1 - 1) []).foldl
        (State.applyControllerSet rm (s.now + 1)) s₄ := rfl
  refine ⟨hturned, fun r hr => ?_, fun r => ?_, ?_⟩
  · have hfold := State.applyControllerSets_staked rm (s.now + 1)
      (s₃.delayedControllerSets.getD (s.now + 1 - 1) []) s₄
    have hinsert : s₄.rewards.staked = s₁.rewards.staked.insert (s.now + 1) s₁.ledger.total := rfl
    rw [hinsert] at hfold
    rw [henter, hfold, StorageMap.getD, StorageMap.get_insert_of_ne _ hr, hstaked]
    rfl
  · rw [← hdue r]
    exact congrArg (fun x => StorageMap.get x r) hpayouts
  · have hsame : s₄.rewards.awardedPts = s.rewards.awardedPts := hawarded
    rw [henter, State.applyControllerSets_awarded (s := s₄) hinv hpending, hsets, hsame]

/-- **`new_session` at the end of a round** does to the rewards what the end of a round does. -/
lemma State.newSession_ended {now newIndex : ℕ} {validators : List AccountId}
    {hasKeys : AccountId → Bool} {out : Option (List AccountId)} (hs : StateInv cfg s)
    (hround : s.round.shouldUpdate now = true)
    (h : s.newSession cfg rm now newIndex validators hasKeys = some (out, s')) : Ended cfg s s' := by
  simp only [State.newSession, State.tryNewRound, Option.bind_eq_bind, Option.bind_eq_some_iff,
    Option.pure_def, Option.some.injEq, Prod.mk.injEq] at h
  obtain ⟨s₁, h₁, -, rfl⟩ := h
  have hdue : (s.enterSession now newIndex validators).round.shouldUpdate now = true := hround
  rw [if_pos hdue] at h₁
  have hend := State.newRound_ended ((s.enterSession_keeps now newIndex validators).inv hs)
    (State.computeTopCandidates_qualified cfg _ hasKeys) h₁
  -- the first half of the session touches neither the rewards nor the settings
  have hprep : ((s.enterSession now newIndex validators).prepareStakingPayouts cfg
      (s.now + 1)).rewards = (s.prepareStakingPayouts cfg (s.now + 1)).rewards := by
    apply State.prepareStakingPayouts_congr
    · rfl
    · rfl
  refine ⟨⟨hend.now, hend.points, hend.awarded, hend.atStake, hend.due⟩, fun r hr => ?_,
    fun r => ?_, hend.moved⟩
  · rw [← hprep]
    exact hend.staked r hr
  · simp only [State.due, ← hprep]
    exact hend.prepared r

end EndOfRound

/-! ## Terms -/

/-- What a payout is made from. -/
structure Terms (AccountId : Type) where
  points : ℕ
  pts : ℕ
  snapshot : ValidatorSnapshot AccountId
  issuance : ℕ
  commission : Option Perbill

section Terms

variable {cfg : Config AccountId} {rm : RelayManager AccountId R} {s s' t t' : State AccountId R}
  {r : ℕ} {v : AccountId} {e : Terms AccountId}

/-- The commission of a candidate. -/
def State.commissionOf (s : State AccountId R) (v : AccountId) : Option Perbill :=
  (s.ledger.candidateInfo.get v).map CandidateMetadata.commission

/-- What the payout of `v` for round `r` has still to read is the same: the commission of `v`, if it
has nominators in the round, and the inflation settings, until the payout is prepared. -/
structure TermsKept (cfg : Config AccountId) (r : ℕ) (v : AccountId) (s s' : State AccountId R) :
    Prop where
  commission : (s.snapshot r v).nominations ≠ [] → s'.commissionOf v = s.commissionOf v
  inflation : s.now < r + cfg.rewardPaymentDelay →
    s'.params.inflationConfig = s.params.inflationConfig

/-- The step leaves the terms alone. -/
def Step.KeepsTerms (cfg : Config AccountId) (rm : RelayManager AccountId R) (r : ℕ) (v : AccountId)
    (s : State AccountId R) (i : Step AccountId R) : Prop :=
  ∀ s', s.step cfg rm i = some s' → TermsKept cfg r v s s'

/-- The terms of `v` at the end of a round. -/
def State.terms (t : State AccountId R) (v : AccountId) : Terms AccountId where
  points := t.rewards.points.getD t.now 0
  pts := (t.controllerSets.foldl (movePts (t.now + 1)) t.rewards.awardedPts).getD (t.now, v) 0
  snapshot := t.snapshot t.now v
  issuance := t.computeIssuance (t.rewards.staked.getD t.now 0)
  commission := t.commissionOf v

/-- **The terms of a past round stand**: points, snapshot and commission are what they were at its end. -/
structure Stands (cfg : Config AccountId) (e : Terms AccountId) (r : ℕ) (v : AccountId)
    (s : State AccountId R) : Prop where
  past : r < s.now
  awarded : ∀ pts, s.rewards.awardedPts.get (r, v) = some pts →
    pts = e.pts ∧ s.snapshot r v = e.snapshot ∧
      (e.snapshot.nominations ≠ [] → s.commissionOf v = e.commission)
  points : s.now < r + cfg.rewardPaymentDelay ∨ (s.due r).isSome →
    s.rewards.points.getD r 0 = e.points
  issuance : s.now < r + cfg.rewardPaymentDelay →
    s.computeIssuance (s.rewards.staked.getD r 0) = e.issuance
  due : ∀ info, s.due r = some info →
    info.roundIssuance = e.issuance ∧ info.totalStakingReward = e.issuance

omit [LinearOrder AccountId] in
/-- What the preparation of payouts does to one round. -/
lemma State.prepareStakingPayouts_terms (cfg : Config AccountId) (s : State AccountId R)
    (now r : ℕ) :
    ((s.prepareStakingPayouts cfg now).due r = s.due r ∧
      (s.prepareStakingPayouts cfg now).rewards.staked.getD r 0 = s.rewards.staked.getD r 0) ∨
    (r + cfg.rewardPaymentDelay = now ∧ ∀ info, (s.prepareStakingPayouts cfg now).due r = some info →
      info.roundIssuance = s.computeIssuance (s.rewards.staked.getD r 0) ∧
      info.totalStakingReward = s.computeIssuance (s.rewards.staked.getD r 0)) := by
  rw [State.prepareStakingPayouts]
  dsimp only
  split_ifs with hnow hzero
  · exact Or.inl ⟨rfl, rfl⟩
  · exact Or.inl ⟨rfl, rfl⟩
  · by_cases hr : r = now - cfg.rewardPaymentDelay
    · subst hr
      refine Or.inr ⟨by omega, fun info hinfo => ?_⟩
      simp only [State.due, StorageMap.get_insert_self, Option.some.injEq] at hinfo
      subst hinfo
      exact ⟨rfl, rfl⟩
    · refine Or.inl ⟨StorageMap.get_insert_of_ne _ hr _, ?_⟩
      simp only [StorageMap.getD, StorageMap.get_remove_of_ne _ hr]

/-- The terms stand from the end of the round itself. -/
lemma Stands.first (ht : Timely cfg t) (h : Ended cfg t t')
    (hc : TermsKept cfg t.now v t t') :
    Stands cfg (t.terms v) t.now v t' := by
  have hsnap : t'.snapshot t.now v = t.snapshot t.now v := by
    rw [State.snapshot, StorageMap.getD, h.atStake _ _ (by omega)]
    rfl
  have hnone : t.due t.now = none := by
    by_contra hsome
    have hlate := (ht.due t.now (Option.ne_none_iff_isSome.mp hsome)).2.1
    exact lt_irrefl _ hlate
  refine ⟨by rw [h.now]; omega, fun pts hpts => ⟨?_, hsnap, fun hnom => ?_⟩, fun _ => ?_,
    fun hnow => ?_, fun info hinfo => ?_⟩
  · rw [h.moved] at hpts
    simp only [State.terms, StorageMap.getD, hpts, Option.getD_some]
  · exact hc.commission hnom
  · rw [h.points]
    rfl
  · rw [h.now] at hnow
    rw [h.staked _ (by omega), State.computeIssuance_congr (hc.inflation (by omega))]
    rcases State.prepareStakingPayouts_terms cfg t (t.now + 1) t.now with ⟨-, hsame⟩ | ⟨hround, -⟩
    · rw [hsame]
      rfl
    · omega
  · rw [h.prepared] at hinfo
    rcases State.prepareStakingPayouts_terms cfg t (t.now + 1) t.now with ⟨hsame, -⟩ | ⟨-, hnew⟩
    · rw [hsame, hnone] at hinfo
      cases hinfo
    · exact hnew info hinfo

omit [LinearOrder AccountId] in
/-- A step that takes entries, or closes the payout. -/
lemma Stands.less (h : Stands cfg e r v s) (hnow : s'.now = s.now)
    (hawarded : ∀ pts, s'.rewards.awardedPts.get (r, v) = some pts →
      s.rewards.awardedPts.get (r, v) = some pts ∧ s'.snapshot r v = s.snapshot r v)
    (hpoints : s'.now < r + cfg.rewardPaymentDelay ∨ (s'.due r).isSome →
      s'.rewards.points.getD r 0 = s.rewards.points.getD r 0)
    (hstaked : s'.rewards.staked = s.rewards.staked)
    (hdue : ∀ info, s'.due r = some info → s.due r = some info)
    (hc : TermsKept cfg r v s s') : Stands cfg e r v s' := by
  refine ⟨hnow ▸ h.past, fun pts hpts => ?_, fun hcase => ?_, fun hearly => ?_,
    fun info hinfo => h.due info (hdue info hinfo)⟩
  · obtain ⟨hold, hstake⟩ := hawarded pts hpts
    obtain ⟨hp, hsnap, hcommission⟩ := h.awarded pts hold
    refine ⟨hp, hstake.trans hsnap, fun hnom => ?_⟩
    rw [hc.commission (hsnap ▸ hnom)]
    exact hcommission hnom
  · rw [hpoints hcase]
    refine h.points ?_
    rcases hcase with hearly | hsome
    · exact Or.inl (hnow ▸ hearly)
    · obtain ⟨info, hinfo⟩ := Option.isSome_iff_exists.mp hsome
      exact Or.inr (Option.isSome_iff_exists.mpr ⟨info, hdue info hinfo⟩)
  · rw [hnow] at hearly
    rw [hstaked, State.computeIssuance_congr (hc.inflation hearly)]
    exact h.issuance hearly

/-- The end of a later round leaves the terms alone. -/
lemma Stands.ended (h : Stands cfg e r v s) (hend : Ended cfg s s')
    (hc : TermsKept cfg r v s s') :
    Stands cfg e r v s' := by
  have hpast := h.past
  have hsnap : s'.snapshot r v = s.snapshot r v := by
    rw [State.snapshot, StorageMap.getD, hend.atStake _ _ (by omega)]
    rfl
  refine ⟨by rw [hend.now]; omega, fun pts hpts => ?_, fun hcase => ?_, fun hearly => ?_,
    fun info hinfo => ?_⟩
  · rw [hend.awarded _ _ (by omega) (by omega)] at hpts
    obtain ⟨hp, hsnap', hcommission⟩ := h.awarded pts hpts
    refine ⟨hp, hsnap.trans hsnap', fun hnom => ?_⟩
    rw [hc.commission (hsnap' ▸ hnom)]
    exact hcommission hnom
  · rw [hend.points]
    refine h.points ?_
    rcases hcase with hearly | hdue
    · rw [hend.now] at hearly
      exact Or.inl (by omega)
    · rcases hend.due r with hsame | ⟨hround, -⟩
      · exact Or.inr (hsame ▸ hdue)
      · exact Or.inl (by omega)
  · rw [hend.now] at hearly
    rw [hend.staked _ (by omega), State.computeIssuance_congr (hc.inflation (by omega))]
    rcases State.prepareStakingPayouts_terms cfg s (s.now + 1) r with ⟨-, hsame⟩ | ⟨hround, -⟩
    · rw [hsame]
      exact h.issuance (by omega)
    · omega
  · rw [hend.prepared] at hinfo
    rcases State.prepareStakingPayouts_terms cfg s (s.now + 1) r with ⟨hsame, -⟩ | ⟨hround, hnew⟩
    · exact h.due info (hsame ▸ hinfo)
    · rw [← h.issuance (by omega)]
      exact hnew info hinfo

/-- A payout takes the entries of one validator, or closes the round. -/
lemma Stands.payout {round : ℕ} {drained : Option AccountId} {paid : Option (AccountId × ℕ)}
    (h : Stands cfg e r v s) (ht : Timely cfg s) (hp : PayoutStep cfg s round drained paid s')
    (hc : TermsKept cfg r v s s') : Stands cfg e r v s' := by
  -- a round that is closed has a payout that is due
  have hclosed : ∀ {info : DelayedPayout} {t : State AccountId R},
      s.rewards.delayedPayouts.get round = some info →
      t.rewards.points = s.rewards.points → t.rewards.delayedPayouts = s.rewards.delayedPayouts →
      t.now = s.now → (t.closePayout round).now < r + cfg.rewardPaymentDelay ∨
        ((t.closePayout round).due r).isSome →
      (t.closePayout round).rewards.points.getD r 0 = s.rewards.points.getD r 0 := by
    intro info t hdue hpoints hpayouts hnow hcase
    by_cases hr : r = round
    · subst hr
      rcases hcase with hearly | hsome
      · have hlate := (ht.due r (Option.isSome_iff_exists.mpr ⟨info, hdue⟩)).1
        have hsame : (t.closePayout r).now = s.now := hnow
        omega
      · simp [State.due, State.closePayout] at hsome
    · simp only [State.closePayout, StorageMap.getD, StorageMap.get_remove_of_ne _ hr, hpoints]
  have hdues : ∀ {t : State AccountId R} {info : DelayedPayout},
      t.rewards.delayedPayouts = s.rewards.delayedPayouts →
      (t.closePayout round).due r = some info → s.due r = some info := by
    intro t info hpayouts hinfo
    simp only [State.due, State.closePayout, StorageMap.get_remove, hpayouts] at hinfo
    split_ifs at hinfo
    exact hinfo
  have htaken : ∀ {w : AccountId} {pts : ℕ},
      (s.rewards.awardedPts.remove (round, w)).get (r, v) = some pts →
      s.rewards.awardedPts.get (r, v) = some pts ∧ (r, v) ≠ (round, w) := by
    intro w pts hpts
    rw [StorageMap.get_remove] at hpts
    split_ifs at hpts with hne
    exact ⟨hpts, hne⟩
  cases hp with
  | idle => exact h.less rfl (fun _ hpts => ⟨hpts, rfl⟩) (fun _ => rfl) rfl (fun _ hd => hd) hc
  | closed hdue =>
      exact h.less rfl (fun _ hpts => ⟨hpts, rfl⟩) (hclosed hdue rfl rfl rfl) rfl
        (fun _ hd => hdues rfl hd) hc
  | lost hdue =>
      exact h.less rfl (fun _ hpts => ⟨(htaken hpts).1, rfl⟩) (hclosed hdue rfl rfl rfl) rfl
        (fun _ hd => hdues rfl hd) hc
  | paid =>
      refine h.less rfl (fun pts hpts => ?_) (fun _ => rfl) rfl (fun _ hd => hd) hc
      obtain ⟨hold, hne⟩ := htaken hpts
      refine ⟨hold, ?_⟩
      simp only [State.snapshot, StorageMap.getD, State.withLedger, State.takeAtStake,
        State.takeAwarded, StorageMap.get_remove_of_ne _ hne]

/-- **Every step** that leaves the terms alone lets them stand. -/
lemma Stands.step {i : Step AccountId R} (hs : StateInv cfg s) (ht : Timely cfg s)
    (h : Stands cfg e r v s) (hc : i.KeepsTerms cfg rm r v s) (hstep : s.step cfg rm i = some s') :
    Stands cfg e r v s' := by
  have hkept := hc s' hstep
  have hquiet : s'.rewards = s.rewards → s'.now = s.now → Stands cfg e r v s' := by
    intro hr hn
    refine h.less hn (fun pts hpts => ⟨hr ▸ hpts, ?_⟩) (fun _ => ?_) ?_ (fun info hd => ?_) hkept
    · rw [State.snapshot, hr]
      rfl
    · rw [hr]
    · rw [hr]
    · rw [State.due, hr] at hd
      exact hd
  cases i with
  | onInitialize n drained =>
      obtain ⟨⟨paid, s₁⟩, h₁, h₂⟩ := Option.map_eq_some_iff.mp hstep
      replace h₂ : s₁ = s' := h₂
      subst h₂
      obtain ⟨snapshot, -, hpay⟩ := State.onInitialize_cases h₁
      refine Stands.payout ?_ ?_ hpay ⟨hkept.commission, hkept.inflation⟩
      · exact ⟨h.past, h.awarded, h.points, h.issuance, h.due⟩
      · exact ⟨ht.points, ht.awarded, ht.atStake, ht.due⟩
  | noteAuthor author =>
      obtain rfl := Option.some.inj hstep
      have hpast := h.past
      have hpts : (r, v) ≠ (s.now, author) := by
        rintro ⟨⟩
        exact lt_irrefl _ hpast
      refine h.less rfl (fun pts hp => ⟨?_, rfl⟩) (fun _ => ?_) rfl (fun _ hd => hd) hkept
      · rwa [State.noteAuthor, StorageMap.get_insert_of_ne _ hpts] at hp
      · simp only [State.noteAuthor, StorageMap.getD, StorageMap.get_insert_of_ne _ hpast.ne]
  | newSession now newIndex validators hasKeys =>
      obtain ⟨⟨out, s₁⟩, h₁, h₂⟩ := Option.map_eq_some_iff.mp hstep
      replace h₂ : s₁ = s' := h₂
      subst h₂
      cases hround : s.round.shouldUpdate now with
      | true => exact h.ended (State.newSession_ended hs hround h₁) hkept
      | false =>
          have hturn := State.newSession_turned h₁
          rw [hround] at hturn
          exact hquiet hturn.1 hturn.2
  | _ =>
      have haside := State.step_aside hs.ledger rfl hstep
      exact hquiet haside.rewards haside.now

/-! ## Two runs -/

/-- A run goes on from `t`, where a round ends, to `s`. -/
def EndsRound (cfg : Config AccountId) (rm : RelayManager AccountId R)
    (cond : State AccountId R → Step AccountId R → Prop) (t s : State AccountId R) : Prop :=
  ∃ now newIndex validators hasKeys t', t.round.shouldUpdate now = true ∧
    cond t (.newSession now newIndex validators hasKeys) ∧
    t.step cfg rm (.newSession now newIndex validators hasKeys) = some t' ∧
    Reachable (fun x => x = t') (State.step cfg rm) cond s

/-- The terms at the end of the round stand for the rest of the run. -/
lemma EndsRound.stands (ht : ReachableIf cfg rm anyStep t)
    (h : EndsRound cfg rm (fun s i => i.KeepsTerms cfg rm t.now v s) t s) :
    Stands cfg (t.terms v) t.now v s := by
  obtain ⟨now, newIndex, validators, hasKeys, t', hround, hc, hstep, hrun⟩ := h
  have ht' : ReachableIf cfg rm anyStep t' := .step ht trivial hstep
  have hfirst : Stands cfg (t.terms v) t.now v t' := by
    have hkept := hc t' hstep
    obtain ⟨⟨out, t₁⟩, h₁, h₂⟩ := Option.map_eq_some_iff.mp hstep
    replace h₂ : t₁ = t' := h₂
    subst h₂
    exact .first ht.timely (State.newSession_ended ht.inv hround h₁) hkept
  have hall : ReachableIf cfg rm anyStep s ∧ Stands cfg (t.terms v) t.now v s := by
    refine Reachable.invariant (P := fun s => ReachableIf cfg rm anyStep s ∧
      Stands cfg (t.terms v) t.now v s) ?_ ?_ hrun
    · rintro s rfl
      exact ⟨ht', hfirst⟩
    · rintro s i s' ⟨hs, hstands⟩ hkeeps hnext
      exact ⟨.step hs trivial hnext, hstands.step hs.inv hs.timely hkeeps hnext⟩
  exact hall.2

/-- Block `n` pays `v` these shares of round `r`. -/
structure State.Pays (cfg : Config AccountId) (s : State AccountId R) (n r : ℕ) (v : AccountId)
    (shares : Shares AccountId) : Prop where
  round : s.payoutRound cfg = r
  author : v ∈ s.authors r
  assigned : s.shares r v = some shares
  paid : ∃ m s', s.ledger.candidateInfo.get v = some m ∧
    s.ledger.payShares cfg v m.stash shares = some s'.ledger ∧
    s.onInitialize cfg n (some v) = some (some (v, shares.total), s')

/-- Every payment pays some shares. -/
lemma State.payment_pays {n : ℕ}
    (h : s.payment cfg (.onInitialize n (some v)) = some (r, v)) :
    ∃ shares, s.Pays cfg n r v shares := by
  simp only [State.payment, Option.bind_eq_some_iff, Option.map_eq_some_iff, Prod.exists,
    Prod.mk.injEq] at h
  obtain ⟨out, s', hinit, w, total, rfl, hround, rfl⟩ := h
  obtain ⟨snapshot, -, hpay⟩ := State.onInitialize_cases hinit
  cases hpay with
  | @paid info _ pts _ m l hdue hpts hm hl =>
      rw [Ledger.payValidator_eq] at hl
      obtain ⟨l', hl', heq⟩ := Option.map_eq_some_iff.mp hl
      obtain ⟨rfl, rfl⟩ := Prod.mk.inj heq
      replace hround : s.now - cfg.rewardPaymentDelay = r := hround
      rw [hround] at hdue hpts hl' hinit
      have hshares : s.shares r w = some (.of m.commission info pts (s.rewards.points.getD r 0)
          (s.snapshot r w)) := by
        have hpoints : s.pointsOf r w = pts := by
          rw [State.pointsOf, StorageMap.getD]
          exact congrArg (fun x => x.getD 0) hpts
        rw [← hpoints]
        exact State.shares_eq hdue hm
      refine ⟨_, hround, State.mem_authors.mpr ⟨pts, hpts⟩, hshares, m, _, hm, ?_, hinit⟩
      exact hl'

omit [LinearOrder AccountId] in
/-- Without nominations, the commission does not matter. -/
lemma Shares.of_solo {commission commission' : Perbill} {info : DelayedPayout} {pts totalPoints : ℕ}
    {snapshot : ValidatorSnapshot AccountId} (h : snapshot.nominations = []) :
    Shares.of commission info pts totalPoints snapshot =
      Shares.of commission' info pts totalPoints snapshot := by
  simp only [Shares.of, h, List.isEmpty_nil, if_true]

/-- The shares of a round whose terms stand. -/
lemma Stands.shares_eq {n : ℕ} {shares : Shares AccountId} (h : Stands cfg e r v s)
    (hp : s.Pays cfg n r v shares) :
    ∃ commission, (e.snapshot.nominations ≠ [] → some commission = e.commission) ∧
      shares = .of commission ⟨e.issuance, e.issuance, .fromPercent 0⟩ e.pts e.points e.snapshot := by
  obtain ⟨m, s', hm, -⟩ := hp.paid
  obtain ⟨pts, hpts⟩ := State.mem_authors.mp hp.author
  obtain ⟨heq, hsnap, hcommission⟩ := h.awarded pts hpts
  have hshares := hp.assigned
  cases hdue : s.due r with
  | none =>
      rw [State.shares, hdue] at hshares
      cases hshares
  | some info =>
      rw [State.shares_eq hdue hm, State.pointsOf, StorageMap.getD, hpts, Option.getD_some, heq, hsnap,
        h.points (Or.inr (Option.isSome_iff_exists.mpr ⟨info, hdue⟩))] at hshares
      obtain rfl := Option.some.inj hshares
      obtain ⟨hissuance, htotal⟩ := h.due info hdue
      refine ⟨m.commission, fun hnom => ?_, ?_⟩
      · rw [← hcommission hnom, State.commissionOf, hm]
        rfl
      · simp only [Shares.of, hissuance, htotal]

/-- **Past rewards stay.**  In any two runs that agree up to the end of a round, up to the requests for
other commissions, a validator and its nominators get the same shares of the round, as long as the
later steps leave the terms alone. -/
theorem past_rewards_fixed {t₁ t₂ s₁ s₂ : State AccountId R} {n₁ n₂ : ℕ}
    {shares₁ shares₂ : Shares AccountId}
    (ht₁ : ReachableIf cfg rm anyStep t₁) (ht₂ : ReachableIf cfg rm anyStep t₂)
    (hsame : t₂ = { t₁ with delayedCommissionSets := t₂.delayedCommissionSets })
    (hr : t₁.now = r)
    (hrun₁ : EndsRound cfg rm (fun s i => i.KeepsTerms cfg rm r v s) t₁ s₁)
    (hrun₂ : EndsRound cfg rm (fun s i => i.KeepsTerms cfg rm r v s) t₂ s₂)
    (hpay₁ : s₁.Pays cfg n₁ r v shares₁) (hpay₂ : s₂.Pays cfg n₂ r v shares₂) :
    shares₁ = shares₂ := by
  have hnow : t₂.now = t₁.now := by
    rw [hsame]
    rfl
  have hterms : t₂.terms v = t₁.terms v := by
    rw [hsame]
    rfl
  subst hr
  have hstands₁ := hrun₁.stands ht₁
  rw [← hnow] at hrun₂
  have hstands₂ := hrun₂.stands ht₂
  rw [hnow, hterms] at hstands₂
  obtain ⟨c₁, hc₁, rfl⟩ := hstands₁.shares_eq hpay₁
  obtain ⟨c₂, hc₂, rfl⟩ := hstands₂.shares_eq hpay₂
  by_cases hsolo : (t₁.terms v).snapshot.nominations = []
  · exact Shares.of_solo hsolo
  · have hcommission : c₁ = c₂ := Option.some.inj ((hc₁ hsolo).trans (hc₂ hsolo).symm)
    rw [hcommission]

end Terms

/-- The terms are the same after the only outcome of a step. -/
lemma Step.keepsTerms_of_eq {cfg : Config AccountId} {rm : RelayManager AccountId R} {r : ℕ}
    {v : AccountId} {s s' : State AccountId R} {i : Step AccountId R}
    (hstep : s.step cfg rm i = some s') (hc : s'.commissionOf v = s.commissionOf v)
    (hi : s'.params.inflationConfig = s.params.inflationConfig) : i.KeepsTerms cfg rm r v s := by
  intro s'' hs''
  obtain rfl := Option.some.inj (hstep.symm.trans hs'')
  exact ⟨fun _ => hc, fun _ => hi⟩

/-- Account 2 is paid for round 1 in a run in which stash 1 has raised its bond, and in one in which it
has not. -/
theorem past_rewards_fixed_devnet : ∃ t s₁ s₂ : State ℕ Unit, ∃ shares,
    ReachableIf devnet devnetRelays anyStep t ∧
    EndsRound devnet devnetRelays (fun s i => i.KeepsTerms devnet devnetRelays 1 2 s) t s₁ ∧
    EndsRound devnet devnetRelays (fun s i => i.KeepsTerms devnet devnetRelays 1 2 s) t s₂ ∧
    s₁.Pays devnet 21 1 2 shares ∧ s₂.Pays devnet 21 1 2 shares := by
  have hrun : (devnetRun [.noteAuthor 2]).any (fun t =>
      decide (t.now = 1 ∧ t.round.shouldUpdate 20 = true) &&
      (t.step devnet devnetRelays (.newSession 20 2 [] fun _ => true)).any fun s₁ =>
        decide (s₁.commissionOf 2 = t.commissionOf 2 ∧
          s₁.params.inflationConfig = t.params.inflationConfig ∧
          s₁.payment devnet (.onInitialize 21 (some 2)) = some (1, 2)) &&
        (s₁.step devnet devnetRelays (.call (.signed 1) (.candidateBondMore 100))).any fun s₂ =>
          decide (s₂.commissionOf 2 = s₁.commissionOf 2 ∧
            s₂.params.inflationConfig = s₁.params.inflationConfig ∧
            s₂.payment devnet (.onInitialize 21 (some 2)) = some (1, 2))) = true := by decide
  obtain ⟨t, ht, hP⟩ := devnetRun_exists hrun
  simp only [Bool.and_eq_true, decide_eq_true_eq, Option.any_eq_true] at hP
  obtain ⟨⟨hnow, hround⟩, s₁, hs₁, ⟨hc₁, hi₁, hpay₁⟩, s₂, hs₂, hc₂, hi₂, hpay₂⟩ := hP
  obtain ⟨shares₁, hpay₁⟩ := State.payment_pays hpay₁
  obtain ⟨shares₂, hpay₂⟩ := State.payment_pays hpay₂
  have hrun₁ : EndsRound devnet devnetRelays (fun s i => i.KeepsTerms devnet devnetRelays 1 2 s) t
      s₁ := ⟨20, 2, [], _, s₁, hround, Step.keepsTerms_of_eq hs₁ hc₁ hi₁, hs₁, .init rfl⟩
  have hrun₂ : EndsRound devnet devnetRelays (fun s i => i.KeepsTerms devnet devnetRelays 1 2 s) t
      s₂ := ⟨20, 2, [], _, s₁, hround, Step.keepsTerms_of_eq hs₁ hc₁ hi₁, hs₁,
        .step (.init rfl) (Step.keepsTerms_of_eq hs₂ hc₂ hi₂) hs₂⟩
  have heq := past_rewards_fixed ht ht rfl hnow hrun₁ hrun₂ hpay₁ hpay₂
  exact ⟨t, s₁, s₂, shares₁, ht, hrun₁, hrun₂, hpay₁, heq ▸ hpay₂⟩

/-- **Rewards of a past round that change.**  Before account 2 is paid for round 1, stash 1 becomes a
basic node, which resets the commission. -/
theorem past_rewards_change : ∃ t s₁ s₂ : State ℕ Unit, ∃ shares₁ shares₂,
    ReachableIf devnet devnetRelays anyStep t ∧ t.now = 1 ∧
    EndsRound devnet devnetRelays anyStep t s₁ ∧ EndsRound devnet devnetRelays anyStep t s₂ ∧
    s₁.Pays devnet 21 1 2 shares₁ ∧ s₂.Pays devnet 21 1 2 shares₂ ∧
    shares₁.validator ≠ shares₂.validator ∧ shares₁.nominators ≠ shares₂.nominators := by
  have hrun : (devnetRun [.noteAuthor 2]).any (fun t =>
      decide (t.now = 1 ∧ t.round.shouldUpdate 20 = true) &&
      (t.step devnet devnetRelays (.newSession 20 2 [] fun _ => true)).any fun s₁ =>
        decide (s₁.payment devnet (.onInitialize 21 (some 2)) = some (1, 2)) &&
        (s₁.step devnet devnetRelays (.call (.signed 1) (.setValidatorTier 0 .basic none))).any
          fun s₂ => decide (s₂.payment devnet (.onInitialize 21 (some 2)) = some (1, 2) ∧
            (s₁.shares 1 2).map Shares.validator ≠ (s₂.shares 1 2).map Shares.validator ∧
            (s₁.shares 1 2).map Shares.nominators ≠ (s₂.shares 1 2).map Shares.nominators)) =
      true := by decide
  obtain ⟨t, ht, hP⟩ := devnetRun_exists hrun
  simp only [Bool.and_eq_true, decide_eq_true_eq, Option.any_eq_true] at hP
  obtain ⟨⟨hnow, hround⟩, s₁, hs₁, hpay₁, s₂, hs₂, hpay₂, hvalidator, hnominators⟩ := hP
  obtain ⟨shares₁, hpay₁⟩ := State.payment_pays hpay₁
  obtain ⟨shares₂, hpay₂⟩ := State.payment_pays hpay₂
  refine ⟨t, s₁, s₂, shares₁, shares₂, ht, hnow,
    ⟨20, 2, [], _, s₁, hround, trivial, hs₁, .init rfl⟩,
    ⟨20, 2, [], _, s₁, hround, trivial, hs₁, .step (.init rfl) trivial hs₂⟩, hpay₁, hpay₂,
    fun heq => hvalidator ?_, fun heq => hnominators ?_⟩
  · rw [hpay₁.assigned, hpay₂.assigned, Option.map_some, Option.map_some, heq]
  · rw [hpay₁.assigned, hpay₂.assigned, Option.map_some, Option.map_some, heq]

end BifrostNode.Staking
