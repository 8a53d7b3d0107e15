import BifrostNode.Staking.Audit

/-!
# What a step does to the rewards

**Rounds.**  `Turned` is what a change of the round does to points, snapshots and payouts.
**Steps.**  `RewardStep` is what any step does to them, with the payment that it makes.
**Timely.**  Points are given and snapshots taken in the current round, and payouts are made of earlier
rounds that have points.
-/

namespace BifrostNode.Staking

open Transition

variable {AccountId R : Type} [LinearOrder AccountId]

/-! ## What a new round does to the rewards -/

section Round

variable {cfg : Config AccountId} {rm : RelayManager AccountId R} {s s' : State AccountId R}

/-- The rewards up to the snapshots of round `now` and the bookkeeping of `staked`. -/
structure Snapshotted (now : ℕ) (s s' : State AccountId R) : Prop where
  points : s'.rewards.points = s.rewards.points
  awarded : s'.rewards.awardedPts = s.rewards.awardedPts
  due : s'.rewards.delayedPayouts = s.rewards.delayedPayouts
  atStake : ∀ r v, r ≠ now → s'.rewards.atStake.get (r, v) = s.rewards.atStake.get (r, v)
  stashes : s'.ledger.bondedStash = s.ledger.bondedStash

omit [LinearOrder AccountId] in
lemma Snapshotted.refl (now : ℕ) (s : State AccountId R) : Snapshotted now s s :=
  ⟨rfl, rfl, rfl, fun _ _ _ => rfl, rfl⟩

omit [LinearOrder AccountId] in
lemma Snapshotted.trans {now : ℕ} {s₁ : State AccountId R} (h₁ : Snapshotted now s s₁)
    (h₂ : Snapshotted now s₁ s') : Snapshotted now s s' where
  points := h₂.points.trans h₁.points
  awarded := h₂.awarded.trans h₁.awarded
  due := h₂.due.trans h₁.due
  atStake r v hr := (h₂.atStake r v hr).trans (h₁.atStake r v hr)
  stashes := h₂.stashes.trans h₁.stashes

lemma State.collectValidatorSnapshot_snapshotted {now : ℕ} {validators : List AccountId}
    {counts : ℕ × ℕ × ℕ} (h : s.collectValidatorSnapshot now validators = some (counts, s')) :
    Snapshotted now s s' := by
  refine foldlM_invariant (P := fun acc => Snapshotted now s acc.2) (fun acc v acc' hacc hv => ?_) h
    (.refl now s)
  simp only [State.countSnapshot, Option.bind_eq_bind, Option.bind_eq_some_iff, Option.pure_def,
    Option.some.injEq] at hv
  obtain ⟨m, -, top, -, rfl⟩ := hv
  refine hacc.trans ⟨rfl, rfl, rfl, fun r w hr => ?_, rfl⟩
  refine StorageMap.get_insert_of_ne _ ?_ _
  rintro ⟨⟩
  exact hr rfl

lemma State.updateTopCandidates_snapshotted {now : ℕ} {full basic : List AccountId}
    {counts : ℕ × ℕ × ℕ} (h : s.updateTopCandidates rm now full basic = some (counts, s')) :
    Snapshotted now s s' := by
  simp only [State.updateTopCandidates, Option.bind_eq_bind, Option.bind_eq_some_iff,
    Option.pure_def, Option.some.injEq, Prod.exists, Prod.mk.injEq] at h
  obtain ⟨c₁, c₂, c₃, s₁, h₁, d₁, d₂, d₃, s₂, h₂, -, rfl⟩ := h
  exact (State.collectValidatorSnapshot_snapshotted h₁).trans
    ((State.collectValidatorSnapshot_snapshotted h₂).trans ⟨rfl, rfl, rfl, fun _ _ _ => rfl, rfl⟩)

omit [LinearOrder AccountId] in
/-- **The payout that a new round creates**, if any. -/
lemma State.prepareStakingPayouts_due (cfg : Config AccountId) (s : State AccountId R) (now r : ℕ) :
    (s.prepareStakingPayouts cfg now).due r = s.due r ∨
      (r + cfg.rewardPaymentDelay = now ∧ s.rewards.points.getD r 0 ≠ 0 ∧
        ((s.prepareStakingPayouts cfg now).due r).isSome) := by
  rw [State.prepareStakingPayouts]
  dsimp only
  split_ifs with hnow hzero
  · exact Or.inl rfl
  · exact Or.inl rfl
  · by_cases hr : r = now - cfg.rewardPaymentDelay
    · subst hr
      refine Or.inr ⟨by omega, hzero, ?_⟩
      simp [State.due]
    · refine Or.inl ?_
      exact StorageMap.get_insert_of_ne _ hr _

omit [LinearOrder AccountId] in
lemma State.prepareStakingPayouts_frame (cfg : Config AccountId) (s : State AccountId R)
    (now : ℕ) :
    (s.prepareStakingPayouts cfg now).rewards.points = s.rewards.points ∧
      (s.prepareStakingPayouts cfg now).rewards.awardedPts = s.rewards.awardedPts ∧
      (s.prepareStakingPayouts cfg now).rewards.atStake = s.rewards.atStake ∧
      (s.prepareStakingPayouts cfg now).ledger = s.ledger := by
  rw [State.prepareStakingPayouts]
  dsimp only
  split_ifs
  · exact ⟨rfl, rfl, rfl, rfl⟩
  · exact ⟨rfl, rfl, rfl, rfl⟩
  · exact ⟨rfl, rfl, rfl, rfl⟩

/-- The rewards when the snapshots of a new round have been taken. -/
lemma State.selectForRound_rewards {round : RoundInfo} {full basic : List AccountId} {count : ℕ}
    (h : s.selectForRound cfg rm round full basic = some (count, s')) :
    s'.rewards.points = s.rewards.points ∧ s'.rewards.awardedPts = s.rewards.awardedPts ∧
      (∀ r v, r ≠ round.currentRoundIndex →
        s'.rewards.atStake.get (r, v) = s.rewards.atStake.get (r, v)) ∧
      s'.ledger.bondedStash = s.ledger.bondedStash ∧
      ∀ r, s'.due r = s.due r ∨ (r + cfg.rewardPaymentDelay = round.currentRoundIndex ∧
        s.rewards.points.getD r 0 ≠ 0 ∧ (s'.due r).isSome) := by
  simp only [State.selectForRound, Option.bind_eq_bind, Option.bind_eq_some_iff, Option.pure_def,
    Option.some.injEq, Prod.exists, Prod.mk.injEq] at h
  obtain ⟨validators, nominations, stake, s₁, h₁, -, rfl⟩ := h
  have hsnap := State.updateTopCandidates_snapshotted h₁
  let s₀ : State AccountId R := { s with
    relay := rm.handleDelayedRelayerSets (rm.refreshRound s.relay round.currentRoundIndex)
      round.currentRoundIndex
    ledger := s.ledger.resetCandidateStates }
  obtain ⟨hpoints, hawarded, hstake, hledger⟩ :=
    State.prepareStakingPayouts_frame cfg s₀ round.currentRoundIndex
  refine ⟨hsnap.points.trans hpoints, hsnap.awarded.trans hawarded, fun r v hr => ?_, ?_, fun r => ?_⟩
  · rw [hsnap.atStake r v hr, hstake]
  · rw [hsnap.stashes, hledger]
    rfl
  · have hdue : s₁.due r = (s₀.prepareStakingPayouts cfg round.currentRoundIndex).due r := by
      rw [State.due, hsnap.due, State.due]
    rw [hdue]
    exact State.prepareStakingPayouts_due cfg s₀ round.currentRoundIndex r

/-- The points after the controller changes of a round: those of the last two rounds have moved. -/
lemma State.applyControllerSets_rewards (rm : RelayManager AccountId R) (now : ℕ) :
    ∀ (cs : List (DelayedControllerSet AccountId)) (s : State AccountId R),
      (cs.foldl (State.applyControllerSet rm now) s).rewards.points = s.rewards.points ∧
      (cs.foldl (State.applyControllerSet rm now) s).rewards.delayedPayouts =
        s.rewards.delayedPayouts ∧
      (cs.foldl (State.applyControllerSet rm now) s).now = s.now ∧
      (∀ r v, r ≠ now → r ≠ now - 1 →
        (cs.foldl (State.applyControllerSet rm now) s).rewards.awardedPts.get (r, v) =
          s.rewards.awardedPts.get (r, v)) ∧
      ∀ r v, r ≠ now →
        (cs.foldl (State.applyControllerSet rm now) s).rewards.atStake.get (r, v) =
          s.rewards.atStake.get (r, v) := by
  intro cs
  induction cs with
  | nil => exact fun s => ⟨rfl, rfl, rfl, fun _ _ _ _ => rfl, fun _ _ _ => rfl⟩
  | cons c cs ih =>
      intro s
      obtain ⟨hpoints, hdue, hnow, hawarded, hstake⟩ := ih (s.applyControllerSet rm now c)
      have hone : (s.applyControllerSet rm now c).rewards = s.rewards ∨
          (s.applyControllerSet rm now c).rewards = (s.moveRewards now c.old c.new).rewards := by
        simp only [State.applyControllerSet]
        cases s.ledger.candidateInfo.get c.old with
        | none => exact Or.inl rfl
        | some m => exact Or.inr rfl
      have hround : (s.applyControllerSet rm now c).now = s.now := by
        simp only [State.applyControllerSet]
        cases s.ledger.candidateInfo.get c.old <;> rfl
      rw [List.foldl_cons]
      rcases hone with hsame | hmoved
      · rw [hsame] at hpoints hdue hawarded hstake
        exact ⟨hpoints, hdue, hnow.trans hround, hawarded, hstake⟩
      · rw [hmoved] at hpoints hdue hawarded hstake
        refine ⟨hpoints, hdue, hnow.trans hround, fun r v hr hr' => ?_, fun r v hr => ?_⟩
        · rw [hawarded r v hr hr']
          have hne : ∀ round x, round = now ∨ round = now - 1 → (r, v) ≠ (round, x) := by
            rintro round x hround ⟨⟩
            rcases hround with h | h
            · exact hr h
            · exact hr' h
          simp [State.moveRewards, hne now _ (Or.inl rfl), hne (now - 1) _ (Or.inr rfl)]
        · rw [hstake r v hr]
          have hne : ∀ x, (r, v) ≠ (now, x) := by
            rintro x ⟨⟩
            exact hr rfl
          simp [State.moveRewards, hne]

/-- **What a change of the round does** to points, payouts and snapshots. -/
structure Turned (cfg : Config AccountId) (s s' : State AccountId R) : Prop where
  now : s'.now = s.now + 1
  points : s'.rewards.points = s.rewards.points
  awarded : ∀ r v, r ≠ s.now → r ≠ s.now + 1 →
    s'.rewards.awardedPts.get (r, v) = s.rewards.awardedPts.get (r, v)
  atStake : ∀ r v, r ≠ s.now + 1 →
    s'.rewards.atStake.get (r, v) = s.rewards.atStake.get (r, v)
  due : ∀ r, s'.due r = s.due r ∨ (r + cfg.rewardPaymentDelay = s.now + 1 ∧
    s.rewards.points.getD r 0 ≠ 0 ∧ (s'.due r).isSome)

lemma State.newRound_turned {now : ℕ} {full basic : List AccountId}
    (h : s.newRound cfg rm now full basic = some s') : Turned cfg s s' := by
  simp only [State.newRound, Option.map_eq_some_iff, Prod.exists] at h
  obtain ⟨validators, s₁, h₁, rfl⟩ := h
  obtain ⟨hpoints, hawarded, hstake, -, hdue⟩ := State.selectForRound_rewards h₁
  have hround : (s.round.updateRound s.session now).currentRoundIndex = s.now + 1 := rfl
  rw [hround] at hstake hdue
  let s₂ : State AccountId R :=
    (s₁.startRound rm (s.round.updateRound s.session now) validators).handleDelayedCommissionSets
      (s.now + 1)
  let s₃ : State AccountId R :=
    { s₂ with delayedControllerSets := s₂.delayedControllerSets.remove (s.now + 1 - 1) }
  obtain ⟨hp, hd, hn, ha, hs⟩ := State.applyControllerSets_rewards rm (s.now + 1)
    (s₂.delayedControllerSets.getD (s.now + 1 - 1) []) s₃
  refine ⟨hn, hp.trans hpoints, fun r v hr hr' => ?_, fun r v hr => ?_, fun r => ?_⟩
  · exact (ha r v hr' hr).trans (by rw [← hawarded]; rfl)
  · exact (hs r v hr).trans (hstake r v hr)
  · have hsame : (s₁.enterRound rm (s.round.updateRound s.session now) validators).due r =
        s₁.due r := congrArg (fun x => StorageMap.get x r) hd
    rw [hsame]
    exact hdue r

/-- **`new_session`** turns the round or leaves the rewards alone. -/
lemma State.newSession_turned {now newIndex : ℕ} {validators : List AccountId}
    {hasKeys : AccountId → Bool} {out : Option (List AccountId)}
    (h : s.newSession cfg rm now newIndex validators hasKeys = some (out, s')) :
    if s.round.shouldUpdate now then Turned cfg s s'
    else s'.rewards = s.rewards ∧ s'.now = s.now := by
  simp only [State.newSession, State.tryNewRound, Option.bind_eq_bind, Option.bind_eq_some_iff,
    Option.pure_def, Option.some.injEq, Prod.mk.injEq] at h
  obtain ⟨s₁, h₁, -, rfl⟩ := h
  have hsame : (s.enterSession now newIndex validators).round.shouldUpdate now =
      s.round.shouldUpdate now := rfl
  rw [hsame] at h₁
  split_ifs at h₁ ⊢
  · have hturn := State.newRound_turned h₁
    exact ⟨hturn.now, hturn.points, hturn.awarded, hturn.atStake, hturn.due⟩
  · obtain rfl := Option.some.inj h₁
    exact ⟨rfl, rfl⟩

end Round

/-! ## Nothing is early -/

section Timely

variable {cfg : Config AccountId} {rm : RelayManager AccountId R} {s s' : State AccountId R}

/-- Points are given and snapshots taken in the current round, and payouts are made of earlier rounds
that have points. -/
structure Timely (cfg : Config AccountId) (s : State AccountId R) : Prop where
  points : ∀ r, s.now < r → s.rewards.points.getD r 0 = 0
  awarded : ∀ r v, s.now < r → s.rewards.awardedPts.get (r, v) = none
  atStake : ∀ r v, s.now < r → s.rewards.atStake.get (r, v) = none
  due : ∀ r, (s.due r).isSome → r + cfg.rewardPaymentDelay ≤ s.now ∧ r < s.now ∧
    s.rewards.points.getD r 0 ≠ 0

omit [LinearOrder AccountId] in
lemma Timely.of_eq (h : Timely cfg s) (hr : s'.rewards = s.rewards) (hn : s'.now = s.now) :
    Timely cfg s' := by
  refine ⟨?_, ?_, ?_, ?_⟩
  · rw [hr, hn]
    exact h.points
  · rw [hr, hn]
    exact h.awarded
  · rw [hr, hn]
    exact h.atStake
  · intro r hdue
    rw [hr, hn]
    rw [State.due, hr] at hdue
    exact h.due r hdue

omit [LinearOrder AccountId] in
/-- A change of the round. -/
lemma Timely.turned (h : Timely cfg s) (ht : Turned cfg s s') : Timely cfg s' := by
  refine ⟨fun r hr => ?_, fun r v hr => ?_, fun r v hr => ?_, fun r hdue => ?_⟩
  · rw [ht.now] at hr
    rw [ht.points]
    exact h.points r (by omega)
  · rw [ht.now] at hr
    rw [ht.awarded r v (by omega) (by omega)]
    exact h.awarded r v (by omega)
  · rw [ht.now] at hr
    rw [ht.atStake r v (by omega)]
    exact h.atStake r v (by omega)
  · rw [ht.now, ht.points]
    rcases ht.due r with hsame | ⟨hround, hpoints, -⟩
    · rw [hsame] at hdue
      obtain ⟨h₁, h₂, h₃⟩ := h.due r hdue
      exact ⟨by omega, by omega, h₃⟩
    · refine ⟨by omega, ?_, hpoints⟩
      by_contra hlate
      exact hpoints (h.points r (by omega))

/-- A payout does not change the round. -/
lemma PayoutStep.now {round : ℕ} {drained : Option AccountId} {paid : Option (AccountId × ℕ)}
    (h : PayoutStep cfg s round drained paid s') : s'.now = s.now := by
  cases h with
  | idle => rfl
  | closed => rfl
  | lost => rfl
  | paid => rfl

/-- A payout keeps everything in its round. -/
lemma Timely.payout {round : ℕ} {drained : Option AccountId} {paid : Option (AccountId × ℕ)}
    (h : Timely cfg s) (hp : PayoutStep cfg s round drained paid s') : Timely cfg s' := by
  have hclose : ∀ {t : State AccountId R}, Timely cfg t → Timely cfg (t.closePayout round) := by
    intro t ht
    refine ⟨fun r hr => ?_, ht.awarded, ht.atStake, fun r hdue => ?_⟩
    · have hold := ht.points r hr
      simp only [State.closePayout, StorageMap.getD, StorageMap.get_remove] at hold ⊢
      split_ifs
      · rfl
      · exact hold
    · simp only [State.due, State.closePayout, StorageMap.get_remove] at hdue
      split_ifs at hdue with hr
      · cases hdue
      · obtain ⟨h₁, h₂, h₃⟩ := ht.due r hdue
        refine ⟨h₁, h₂, ?_⟩
        simp only [State.closePayout, StorageMap.getD, StorageMap.get_remove_of_ne _ hr]
        exact h₃
  have htake : ∀ {t : State AccountId R} {v : AccountId}, Timely cfg t →
      Timely cfg (t.takeAwarded round v) := by
    intro t v ht
    refine ⟨ht.points, fun r w hr => ?_, ht.atStake, ht.due⟩
    simp only [State.takeAwarded, StorageMap.get_remove]
    split_ifs
    · rfl
    · exact ht.awarded r w hr
  cases hp with
  | idle => exact h
  | closed => exact hclose h
  | lost => exact hclose (htake h)
  | @paid info v pts total m l hdue hpts hm hl =>
      have h₁ : Timely cfg (s.takeAwarded round v) := htake h
      refine ⟨h₁.points, h₁.awarded, fun r w hr => ?_, h₁.due⟩
      simp only [State.withLedger, State.takeAtStake, StorageMap.get_remove]
      split_ifs
      · rfl
      · exact h₁.atStake r w hr

lemma Timely.noteAuthor (h : Timely cfg s) (author : AccountId) :
    Timely cfg (s.noteAuthor author) := by
  have hnow : (s.noteAuthor author).now = s.now := rfl
  refine ⟨fun r hr => ?_, fun r v hr => ?_, h.atStake, fun r hdue => ?_⟩
  · rw [hnow] at hr
    simp only [State.noteAuthor, StorageMap.getD, StorageMap.get_insert_of_ne _ (ne_of_gt hr)]
    exact h.points r hr
  · rw [hnow] at hr
    have hne : (r, v) ≠ (s.now, author) := by
      rintro ⟨⟩
      exact lt_irrefl _ hr
    simp only [State.noteAuthor, StorageMap.get_insert_of_ne _ hne]
    exact h.awarded r v hr
  · obtain ⟨h₁, h₂, h₃⟩ := h.due r hdue
    refine ⟨h₁, h₂, ?_⟩
    simp only [State.noteAuthor, StorageMap.getD, StorageMap.get_insert_of_ne _ (ne_of_lt h₂)]
    exact h₃

/-- **What a step can do to the rewards**, with the payment it makes. -/
inductive RewardStep (cfg : Config AccountId) (s : State AccountId R) :
    Option (ℕ × AccountId) → State AccountId R → Prop
  | quiet {s' : State AccountId R} (hr : s'.rewards = s.rewards) (hn : s'.now = s.now) :
      RewardStep cfg s none s'
  | noted (author : AccountId) : RewardStep cfg s none (s.noteAuthor author)
  | turned {s' : State AccountId R} (h : Turned cfg s s') : RewardStep cfg s none s'
  | payout {n : ℕ} {snapshot : TotalSnapshot} {drained : Option AccountId}
      {paid : Option (AccountId × ℕ)} {s' : State AccountId R}
      (h : PayoutStep cfg { s with
        round := s.round.updateBlock n
        rewards := { s.rewards with
          totalAtStake := s.rewards.totalAtStake.insert s.now snapshot } }
        (s.payoutRound cfg) drained paid s') :
      RewardStep cfg s (paid.map fun p => (s.payoutRound cfg, p.1)) s'

/-- **Every step** does one of these. -/
lemma State.step_rewards {i : Step AccountId R} (hl : LedgerInv cfg s.ledger)
    (hstep : s.step cfg rm i = some s') : RewardStep cfg s (s.payment cfg i) s' := by
  cases i with
  | onInitialize n drained =>
      obtain ⟨⟨paid, s₁⟩, h₁, rfl⟩ := Option.map_eq_some_iff.mp hstep
      obtain ⟨snapshot, -, hpay⟩ := State.onInitialize_cases h₁
      simp only [State.payment, h₁, Option.bind_some]
      exact .payout hpay
  | noteAuthor author =>
      obtain rfl := Option.some.inj hstep
      exact .noted author
  | newSession now newIndex validators hasKeys =>
      obtain ⟨⟨out, s₁⟩, h₁, rfl⟩ := Option.map_eq_some_iff.mp hstep
      have hturn := State.newSession_turned h₁
      split_ifs at hturn
      · exact .turned hturn
      · exact .quiet hturn.1 hturn.2
  | _ =>
      have haside := State.step_aside hl rfl hstep
      exact .quiet haside.rewards haside.now

/-- **Step lemma.**  Points, snapshots and payouts stay in their rounds. -/
lemma Timely.step {paid : Option (ℕ × AccountId)} (h : Timely cfg s)
    (hstep : RewardStep cfg s paid s') : Timely cfg s' := by
  cases hstep with
  | quiet hr hn => exact h.of_eq hr hn
  | noted author => exact h.noteAuthor author
  | turned hturn => exact h.turned hturn
  | payout hpay =>
      refine Timely.payout ?_ hpay
      exact ⟨h.points, h.awarded, h.atStake, h.due⟩

lemma GenesisConfig.joinAll_rewards :
    ∀ {entries : List (AccountId × AccountId × AccountId × ℕ)} {s s' : State AccountId R} {k : ℕ},
      joinAll cfg rm s k entries = some s' → s'.rewards = s.rewards := by
  intro entries
  induction entries with
  | nil =>
      intro s s' k h
      obtain rfl := Option.some.inj h
      rfl
  | cons entry rest ih =>
      obtain ⟨stash, controller, relayer, balance⟩ := entry
      intro s s' k h
      simp only [joinAll] at h
      split_ifs at h
      cases hjoin : s.joinCandidates cfg rm stash controller (some relayer) balance (k + 1) with
      | ok s₁ =>
          rw [hjoin] at h
          have hsame : Returns (fun t => t.rewards = s.rewards)
              (s.joinCandidates cfg rm stash controller (some relayer) balance (k + 1)) :=
            .bind fun _ => .bind fun _ => .bind fun _ => .bind fun _ => .bind fun _ =>
              .bind fun _ => .bind fun _ => .bind fun _ => .bind fun _ => .bind fun _ => .pure rfl
          exact (ih h).trans (hsame s₁ hjoin)
      | error e =>
          rw [hjoin] at h
          exact ih h

lemma GenesisConfig.nominateAll_rewards :
    ∀ {entries : List (AccountId × AccountId × ℕ)} {s s' : State AccountId R}
      {v n : StorageMap AccountId ℕ},
      nominateAll cfg s v n entries = some s' → s'.rewards = s.rewards := by
  intro entries
  induction entries with
  | nil =>
      intro s s' v n h
      obtain rfl := Option.some.inj h
      rfl
  | cons entry rest ih =>
      obtain ⟨nominator, target, balance⟩ := entry
      intro s s' v n h
      simp only [nominateAll] at h
      split_ifs at h
      cases hnom : s.ledger.nominate cfg nominator target balance (v.getD target 0)
          (n.getD nominator 0) with
      | ok l =>
          simp only [hnom] at h
          have hrest := ih h
          exact hrest
      | error e =>
          simp only [hnom] at h
          exact ih h

/-- Genesis is in round 1, has no points and owes nothing. -/
lemma IsGenesis.unpaid (h : IsGenesis cfg rm s) :
    s.now = 1 ∧ s.rewards.points = ∅ ∧ s.rewards.awardedPts = ∅ ∧ s.rewards.delayedPayouts = ∅ ∧
      ∀ r v, 1 < r → s.rewards.atStake.get (r, v) = none := by
  obtain ⟨g, hg⟩ := h
  simp only [GenesisConfig.build, Option.bind_eq_bind, Option.bind_eq_some_iff, Option.pure_def,
    Option.some.injEq, Prod.exists] at hg
  obtain ⟨s₁, h₁, s₂, h₂, validators, nominations, stake, s₃, h₃, rfl⟩ := hg
  have hblank : s₂.rewards = ⟨∅, ∅, ∅, ∅, ∅, ∅⟩ :=
    (GenesisConfig.nominateAll_rewards h₂).trans (GenesisConfig.joinAll_rewards h₁)
  have hsnap := State.updateTopCandidates_snapshotted h₃
  refine ⟨rfl, hsnap.points.trans (congrArg Rewards.points hblank),
    hsnap.awarded.trans (congrArg Rewards.awardedPts hblank),
    hsnap.due.trans (congrArg Rewards.delayedPayouts hblank), fun r v hr => ?_⟩
  refine (hsnap.atStake r v (by omega)).trans ?_
  exact congrArg (fun x => StorageMap.get x (r, v)) (congrArg Rewards.atStake hblank)

/-- **Genesis.**  There is nothing of a later round yet, and nothing to pay. -/
lemma IsGenesis.timely (h : IsGenesis cfg rm s) : Timely cfg s := by
  obtain ⟨hnow, hpoints, hawarded, hdue, hstake⟩ := h.unpaid
  refine ⟨fun r _ => ?_, fun r v _ => ?_, fun r v hr => ?_, fun r hr => ?_⟩
  · simp only [hpoints]
    rfl
  · simp only [hawarded]
    rfl
  · exact hstake r v (by omega)
  · simp only [State.due, hdue] at hr
    cases hr

/-- **Run lemma.**  Points, snapshots and payouts are in their rounds in every state of a run. -/
lemma ReachableIf.timely {cond : State AccountId R → Step AccountId R → Prop}
    (h : ReachableIf cfg rm cond s) : Timely cfg s := by
  rw [ReachableIf] at h
  induction h with
  | init h0 => exact h0.timely
  | step hreach _ hstep ih =>
      have hbefore : ReachableIf cfg rm cond _ := hreach
      exact ih.step (State.step_rewards hbefore.inv.ledger hstep)

end Timely

/-- An audited run of the small network. -/
def devnetAudit (cond : Audit ℕ Unit → Step ℕ Unit → Prop) [∀ a i, Decidable (cond a i)]
    (steps : List (Step ℕ Unit)) : Option (Audit ℕ Unit) :=
  (devnetGenesis.build devnet devnetRelays).bind fun s =>
    runSteps (checked (Audit.step devnet devnetRelays) cond) (.start s) steps

lemma devnetAudit_exists (cond : Audit ℕ Unit → Step ℕ Unit → Prop) [∀ a i, Decidable (cond a i)]
    (steps : List (Step ℕ Unit)) {P : Audit ℕ Unit → Bool}
    (h : (devnetAudit cond steps).any P = true) :
    ∃ a, AuditedIf devnet devnetRelays cond a ∧ P a = true := by
  cases ha : devnetAudit cond steps with
  | none =>
      rw [ha] at h
      cases h
  | some a =>
      rw [ha] at h
      obtain ⟨s, hs, hrun⟩ := Option.bind_eq_some_iff.mp ha
      exact ⟨a, Reachable.runChecked (.init ⟨s, ⟨devnetGenesis, hs⟩, rfl⟩) hrun, h⟩

end BifrostNode.Staking
