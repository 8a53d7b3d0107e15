import BifrostNode.Staking.CandidateSpec

/-!
# Hooks keep the books

Payouts, round changes and offences, as far as the ledger is concerned.  Paying a reward may bond
it; selecting, resetting and renaming candidates moves no stake; a slash takes from the reserve what
it takes from the self-bond.
-/

namespace BifrostNode.Staking

open Transition RankedList

variable {AccountId : Type} [LinearOrder AccountId]

/-! ## Payouts -/

section Payouts

variable {cfg : Config AccountId} {l l' : Ledger AccountId} {c n stash : AccountId} {reward : ℕ}

/-- Minting moves no stake. -/
lemma Ledger.mintReward_quiet (l : Ledger AccountId) (amount : ℕ) (a : AccountId) :
    Quiet cfg l (l.mintReward amount a) := by
  rw [Ledger.mintReward]
  cases h : l.currency.depositIntoExisting a amount with
  | none => exact Quiet.refl l
  | some currency =>
      exact Quiet.of_eq rfl rfl rfl rfl rfl (Currency.reserved_depositIntoExisting h) rfl rfl

lemma Ledger.mintReward_info (l : Ledger AccountId) (amount : ℕ) (a : AccountId) :
    (l.mintReward amount a).candidateInfo = l.candidateInfo ∧
      (l.mintReward amount a).nominatorState = l.nominatorState := by
  rw [Ledger.mintReward]
  cases l.currency.depositIntoExisting a amount <;> exact ⟨rfl, rfl⟩

omit [LinearOrder AccountId] in
lemma CandidateMetadata.sameStake_incrementAwardedTokens (m : CandidateMetadata AccountId)
    (tokens : ℕ) : m.SameStake (m.incrementAwardedTokens tokens) :=
  ⟨rfl, rfl, rfl, rfl, rfl, rfl, rfl, rfl, rfl, fun _ h => Or.inl h, id⟩

/-- `handle_validator_reward_payout` keeps books and balances, also where it compounds the reward. -/
lemma Ledger.handleValidatorRewardPayout_preserves
    (h : l.handleValidatorRewardPayout c stash reward = .ok l') :
    Preserves cfg True True l l' := by
  rw [Ledger.handleValidatorRewardPayout] at h
  cases hc : l.candidateInfo.get c with
  | none =>
      simp only [hc] at h
      obtain rfl := Except.ok.inj h
      exact Preserves.refl l
  | some m =>
      have hsame := m.sameStake_incrementAwardedTokens reward
      have hc' : (l.mintReward reward stash).candidateInfo.get c = some m := by
        rw [(l.mintReward_info reward stash).1, hc]
      refine (l.mintReward_quiet reward stash).preserves.trans ?_
      simp only [hc] at h
      split at h
      · simp only [bind_eq_ok, pure_eq_ok, Prod.exists] at h
        obtain ⟨m', l₁, hmore, rfl⟩ := h
        refine CandidateMetadata.bondMore_preserves hc' hsame hmore (Quiet.sameStake_refl m') ?_ ?_
          ?_ ?_ ?_ ?_ ?_ ?_ <;> simp
      · obtain rfl := Except.ok.inj h
        exact (Quiet.putCandidate hc' hsame).preserves

/-- A benign error is logged. -/
lemma Preserves.warn (l : Ledger AccountId) {w : Warning AccountId} (hw : w.Benign) :
    Preserves cfg True True l { l with warnings := w :: l.warnings } where
  inv hl := by
    refine ⟨⟨hl.books.board, hl.books.no_board, hl.books.stash_iff, hl.books.request_lt,
      hl.books.agree⟩, hl.records, ?_⟩
    intro v hv
    rcases List.mem_cons.mp hv with rfl | hv
    · exact hw
    · exact hl.benign v hv
  solvent _ _ hs := hs
  bottomExact _ _ hb := hb
  total _ _ _ ht := ht
  backed _ hs := hs
  covers _ _ ht := ht
  steady _ := .of_eq rfl rfl

/-- **`handle_nominator_reward_payout`**, with the compounding inside it. -/
lemma Ledger.handleNominatorRewardPayout_preserves (l : Ledger AccountId) (c n : AccountId)
    (reward : ℕ) :
    Preserves cfg True True l (l.handleNominatorRewardPayout cfg c n reward) := by
  rw [Ledger.handleNominatorRewardPayout]
  cases hn : l.nominatorState.get n with
  | none => exact Preserves.refl l
  | some st =>
      simp only
      split_ifs with hactive
      · refine (l.mintReward_quiet reward n).preserves.trans ?_
        generalize hl₁ : l.mintReward reward n = l₁
        have hn₁ : l₁.nominatorState.get n = some st := by
          rw [← hl₁, (l.mintReward_info reward n).2, hn]
        split
        · refine Preserves.of_inv fun hl => ?_
          rcases Nominator.increaseNomination_spec (st.incrementAwardedTokens c reward) c hl hn₁
            rfl rfl rfl rfl reward with ⟨hnone, heq⟩ | heq | ⟨st', l₂, heq, hget, hpres⟩
          · rw [heq]
            exact Preserves.warn l₁ (Or.inl hnone)
          · rw [heq]
            exact Preserves.warn l₁ (Or.inr rfl)
          · rw [heq]
            -- the record is written a second time
            simpa only [StorageMap.insert_eq_self hget] using hpres
        · refine (Quiet.putNominator hn₁ ?_ ?_).preserves
          · rfl
          · exact fun hst => hst.of_eq rfl rfl rfl rfl
      · exact Preserves.refl l

/-- The loop over the nominations of a snapshot. -/
lemma Ledger.payNominators_preserves (total amountDue : ℕ) :
    ∀ (nominations : List (Bond AccountId)) (l : Ledger AccountId),
      Preserves cfg True True l (l.payNominators cfg c total amountDue nominations) := by
  intro nominations
  induction nominations with
  | nil => exact Preserves.refl
  | cons b nominations ih =>
      intro l
      rw [Ledger.payNominators, List.foldl_cons, ← Ledger.payNominators]
      dsimp only
      split_ifs
      · exact ih l
      · exact (l.handleNominatorRewardPayout_preserves c b.owner _).trans (ih _)

/-- **The payments of one validator** keep books and balances. -/
lemma Ledger.payValidator_preserves {m : CandidateMetadata AccountId} {info : DelayedPayout}
    {pts points paid : ℕ} {snapshot : ValidatorSnapshot AccountId}
    (h : l.payValidator cfg c m info pts points snapshot = some (paid, l')) :
    Preserves cfg True True l l' := by
  simp only [Ledger.payValidator] at h
  split_ifs at h
  · simp only [Option.map_eq_some_iff, Prod.mk.injEq] at h
    obtain ⟨l₁, h₁, -, rfl⟩ := h
    exact Ledger.handleValidatorRewardPayout_preserves (toOption_eq_some.mp h₁)
  · simp only [Option.map_eq_some_iff, Prod.mk.injEq] at h
    obtain ⟨l₁, h₁, -, rfl⟩ := h
    exact (Ledger.handleValidatorRewardPayout_preserves
      (toOption_eq_some.mp h₁)).trans (Ledger.payNominators_preserves _ _ _ _)

end Payouts

/-! ## What a block pays -/

section Block

variable {R : Type} {cfg : Config AccountId} {s s' : State AccountId R} {round now : ℕ}
  {drained : Option AccountId} {paid : Option (AccountId × ℕ)}

/-- **What the payout of a block can do.**  Nothing is due; or the round is closed, because no
author is left or because the one that came up is not a candidate any more; or an author is paid. -/
inductive PayoutStep (cfg : Config AccountId) (s : State AccountId R) (round : ℕ) :
    Option AccountId → Option (AccountId × ℕ) → State AccountId R → Prop
  | idle {drained : Option AccountId}
      (hdue : s.now < cfg.rewardPaymentDelay ∨ s.rewards.delayedPayouts.get round = none) :
      PayoutStep cfg s round drained none s
  | closed {drained : Option AccountId} {info : DelayedPayout}
      (hdue : s.rewards.delayedPayouts.get round = some info)
      (hdone : s.rewards.points.getD round 0 = 0 ∨ s.authors round = ∅) :
      PayoutStep cfg s round drained none (s.closePayout round)
  | lost {info : DelayedPayout} {v : AccountId} {pts : ℕ}
      (hdue : s.rewards.delayedPayouts.get round = some info)
      (hpts : s.rewards.awardedPts.get (round, v) = some pts)
      (hgone : s.ledger.candidateInfo.get v = none) :
      PayoutStep cfg s round (some v) none ((s.takeAwarded round v).closePayout round)
  | paid {info : DelayedPayout} {v : AccountId} {pts total : ℕ} {m : CandidateMetadata AccountId}
      {l : Ledger AccountId} (hdue : s.rewards.delayedPayouts.get round = some info)
      (hpts : s.rewards.awardedPts.get (round, v) = some pts)
      (hm : s.ledger.candidateInfo.get v = some m)
      (hl : s.ledger.payValidator cfg v m info pts (s.rewards.points.getD round 0)
        (s.snapshot round v) = some (total, l)) :
      PayoutStep cfg s round (some v) (some (v, total))
        (((s.takeAwarded round v).takeAtStake round v).withLedger l)

/-- `handle_delayed_payouts` does one of these. -/
lemma State.handleDelayedPayouts_cases
    (h : s.handleDelayedPayouts cfg s.now drained = some (paid, s')) :
    PayoutStep cfg s (s.now - cfg.rewardPaymentDelay) drained paid s' := by
  simp only [State.handleDelayedPayouts] at h
  by_cases hnow : s.now < cfg.rewardPaymentDelay
  · simp only [if_pos hnow, Option.some.injEq, Prod.mk.injEq] at h
    obtain ⟨rfl, rfl⟩ := h
    exact .idle (Or.inl hnow)
  rw [if_neg hnow] at h
  generalize s.now - cfg.rewardPaymentDelay = round at h ⊢
  cases hdue : s.rewards.delayedPayouts.get round with
  | none =>
      simp only [hdue, Option.some.injEq, Prod.mk.injEq] at h
      obtain ⟨rfl, rfl⟩ := h
      exact .idle (Or.inr hdue)
  | some info =>
      simp only [hdue, State.payOneValidatorReward] at h
      by_cases hzero : s.rewards.points.getD round 0 = 0
      · simp only [if_pos hzero, Option.map_some, Option.some.injEq, Prod.mk.injEq] at h
        obtain ⟨rfl, rfl⟩ := h
        exact .closed hdue (Or.inl hzero)
      rw [if_neg hzero] at h
      cases drained with
      | none =>
          by_cases hdone : s.authors round = ∅
          · simp only [if_pos hdone, Option.map_some, Option.some.injEq, Prod.mk.injEq] at h
            obtain ⟨rfl, rfl⟩ := h
            exact .closed hdue (Or.inr hdone)
          · simp [if_neg hdone] at h
      | some v =>
          cases hpts : s.rewards.awardedPts.get (round, v) with
          | none => simp [hpts] at h
          | some pts =>
              cases hm : s.ledger.candidateInfo.get v with
              | none =>
                  simp only [hpts, hm, Option.map_some, Option.some.injEq, Prod.mk.injEq] at h
                  obtain ⟨rfl, rfl⟩ := h
                  exact .lost hdue hpts hm
              | some m =>
                  simp only [hpts, hm, Option.map_map, Option.map_eq_some_iff, Prod.exists,
                    Function.comp_apply, Prod.mk.injEq] at h
                  obtain ⟨total, l, hl, rfl, rfl⟩ := h
                  exact .paid hdue hpts hm hl

/-- `on_initialize`: the snapshot of the block, then the payout. -/
lemma State.onInitialize_cases {n : ℕ} (h : s.onInitialize cfg n drained = some (paid, s')) :
    ∃ snapshot, s.totalSnapshot = some snapshot ∧
      PayoutStep cfg { s with
        round := s.round.updateBlock n
        rewards := { s.rewards with
          totalAtStake := s.rewards.totalAtStake.insert s.now snapshot } }
        (s.now - cfg.rewardPaymentDelay) drained paid s' := by
  simp only [State.onInitialize, State.refreshTotalSnapshot, Option.bind_eq_bind,
    Option.bind_eq_some_iff, Option.map_eq_some_iff] at h
  obtain ⟨s₁, ⟨snapshot, hsnap, rfl⟩, h⟩ := h
  exact ⟨snapshot, hsnap, State.handleDelayedPayouts_cases h⟩

end Block

/-! ## Rounds -/

section Rounds

variable {cfg : Config AccountId}

/-- `reset_candidate_states` moves no stake. -/
lemma Ledger.resetCandidateStates_quiet (l : Ledger AccountId) :
    Quiet cfg l l.resetCandidateStates := by
  refine Quiet.of_candidates (fun c => ?_) rfl rfl rfl rfl rfl rfl rfl
  simp only [Ledger.resetCandidateStates, StorageMap.get_mapVals]
  cases l.candidateInfo.get c with
  | none => exact .none
  | some m => exact .some ⟨rfl, rfl, rfl, rfl, rfl, rfl, rfl, rfl, rfl, fun _ h => Or.inl h, id⟩

/-- A loop that rewrites candidates without touching their stake. -/
lemma Quiet.foldl_modifyCandidate {ι : Type} {who : ι → AccountId}
    {f : ι → CandidateMetadata AccountId → CandidateMetadata AccountId}
    (hf : ∀ i m, CandidateMetadata.SameStake m (f i m)) :
    ∀ (is : List ι) (l : Ledger AccountId),
      Quiet cfg l (is.foldl (fun l i => l.modifyCandidate (who i) (f i)) l) := by
  intro is
  induction is with
  | nil => exact Quiet.refl
  | cons i is ih =>
      intro l
      exact (Quiet.modifyCandidate (hf i) l (who i)).trans (ih _)

/-- `compute_productivity` moves no stake. -/
lemma Ledger.computeProductivity_quiet (l : Ledger AccountId) (p : Perbill)
    (validators : List AccountId) : Quiet cfg l (l.computeProductivity p validators) := by
  refine Quiet.foldl_modifyCandidate (fun _ m => ?_) validators l
  split_ifs
  · exact ⟨rfl, rfl, rfl, rfl, rfl, rfl, rfl, rfl, rfl, fun _ h => Or.inl h, id⟩
  · exact Quiet.sameStake_refl m

end Rounds

end BifrostNode.Staking
