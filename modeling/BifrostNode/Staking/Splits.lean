import BifrostNode.Lib.Rounding
import BifrostNode.Staking.Shares

/-!
# Splits of a reward

A payout takes the part of the issuance that a validator has earned and splits it between the validator
and the nominators of its snapshot.  Parts are rounded down, amounts to the nearest integer.

**Bound.**  The commission is at most the reward that it is taken from, and all payments together exceed
the reward by at most one half for each but one of them (`Shares.sum_paid_le`).  This needs a snapshot
whose total is not zero if there are nominations: a part of nothing is everything.

**Snapshots.**  Such are the snapshots of every run, since no nomination is zero.
-/

namespace BifrostNode.Staking

open Transition

/-! ## Parts -/

namespace Perbill

/-- More of the whole is more of the part. -/
lemma mul_mono (p : Perbill) {x y : ℕ} (h : x ≤ y) : p.mul x ≤ p.mul y := by
  have hxy : x * p.parts ≤ y * p.parts := Nat.mul_le_mul_right _ h
  have hx := Nat.div_add_mod (x * p.parts) 1000000000
  have hy := Nat.div_add_mod (y * p.parts) 1000000000
  rw [mul, mul]
  split_ifs <;> omega

/-- A product is rounded to the nearest integer. -/
lemma nearest_mul (p : Perbill) (x : ℕ) :
    Rounding.Nearest 1000000000 (p.parts * x) (p.mul x) := by
  have hdiv := Nat.div_add_mod (x * p.parts) 1000000000
  rw [Rounding.Nearest, Nat.mul_comm p.parts x, mul]
  split_ifs <;> omega

/-- A fraction is rounded down. -/
lemma parts_fromRational_mul_le {p q : ℕ} (h : p ≤ q) :
    (fromRational p q).parts * q ≤ p * 1000000000 := by
  rw [fromRational]
  split_ifs with hle
  · obtain rfl := Nat.le_antisymm h hle
    exact (Nat.mul_comm _ _).le
  · calc (fromParts (p * 1000000000 / q)).parts * q
        ≤ p * 1000000000 / q * q := Nat.mul_le_mul_right q (min_le_left _ _)
      _ ≤ p * 1000000000 := Nat.div_mul_le_self _ _

/-- **A split.**  Parts of one whole, of which all but one may gain one half. -/
lemma sum_split_le {as : List ℕ} {t : ℕ} (ht : 0 < t) (has : as.sum ≤ t) (hne : as ≠ []) (x : ℕ) :
    2 * (as.map fun a => (fromRational a t).mul x).sum ≤ 2 * x + (as.length - 1) := by
  have hparts : (as.map fun a => (fromRational a t).parts).sum ≤ 1000000000 := by
    refine Rounding.sum_floor_le (a := id) ht (fun a ha => ?_) (by rwa [List.map_id])
    exact parts_fromRational_mul_le ((List.single_le_sum (fun _ _ => Nat.zero_le _) a ha).trans has)
  refine Rounding.sum_le (y := fun a => (fromRational a t).parts * x) hne
    (fun a _ => nearest_mul _ x) ?_
  rw [List.sum_map_mul_right]
  exact Nat.mul_le_mul_right x hparts

end Perbill

variable {AccountId R : Type}

/-! ## One payout -/

section Payout

/-- The total covers the bond and the nominations, and is zero only without nominations. -/
structure ValidatorSnapshot.Backed (snapshot : ValidatorSnapshot AccountId) : Prop where
  stake_le : snapshot.bond + (snapshot.nominations.map Bond.amount).sum ≤ snapshot.total
  pos : snapshot.nominations ≠ [] → 0 < snapshot.total

/-- All amounts that a payout assigns. -/
def Shares.amounts (self : Shares AccountId) : List ℕ :=
  self.validator :: self.nominators.map Prod.snd

variable {commission : Perbill} {info : DelayedPayout} {pts totalPoints : ℕ}
  {snapshot : ValidatorSnapshot AccountId}

/-- **The commission** is at most the reward. -/
lemma Shares.commission_le (h : info.roundIssuance ≤ info.totalStakingReward) :
    (Perbill.fromRational pts totalPoints).mul (commission.mul info.roundIssuance) ≤
      (Shares.of commission info pts totalPoints snapshot).total := by
  have htotal : (Shares.of commission info pts totalPoints snapshot).total =
      (Perbill.fromRational pts totalPoints).mul info.totalStakingReward := by
    rw [Shares.of]
    split_ifs <;> rfl
  rw [htotal]
  exact Perbill.mul_mono _ ((commission.mul_le _).trans h)

/-- **Payments of one reward.**  However few of the amounts are paid, all but one of them may gain one
half. -/
lemma Shares.sum_paid_le (h : info.roundIssuance ≤ info.totalStakingReward) (hs : snapshot.Backed)
    {paid : List ℕ} (hne : paid ≠ [])
    (hpaid : paid.Sublist (Shares.of commission info pts totalPoints snapshot).amounts) :
    2 * paid.sum ≤ 2 * (Shares.of commission info pts totalPoints snapshot).total +
      (paid.length - 1) := by
  have hcommission : (Perbill.fromRational pts totalPoints).mul
      (commission.mul info.roundIssuance) ≤
        (Shares.of commission info pts totalPoints snapshot).total := Shares.commission_le h
  by_cases hsolo : snapshot.nominations = []
  · simp only [Shares.amounts, Shares.of, hsolo, List.isEmpty_nil, if_true, List.map_nil] at hpaid ⊢
    rcases List.sublist_singleton.mp hpaid with rfl | rfl
    · exact absurd rfl hne
    · simp
  · have hempty : ¬ snapshot.nominations.isEmpty = true := by rwa [List.isEmpty_iff]
    have htotal := hs.pos hsolo
    simp only [Shares.amounts, Shares.of, if_neg hempty, List.map_map] at hpaid hcommission ⊢
    generalize (Perbill.fromRational pts totalPoints).mul info.totalStakingReward = total at *
    generalize (Perbill.fromRational pts totalPoints).mul (commission.mul info.roundIssuance) = com
      at *
    have hdue : wrappingSub total com = total - com := if_pos hcommission
    rw [hdue] at hpaid
    rw [List.sublist_cons_iff] at hpaid
    rcases hpaid with hrest | ⟨rest, rfl, hrest⟩
    · -- the validator is not paid
      obtain ⟨bonds, hbonds, rfl⟩ := List.sublist_map_iff.mp hrest
      have hsum : (bonds.map Bond.amount).sum ≤ snapshot.total := by
        have hle := (hbonds.map Bond.amount).sum_le_sum fun a _ => Nat.zero_le a
        have hall := hs.stake_le
        omega
      have hsplit := Perbill.sum_split_le htotal hsum (by simpa using hne) (total - com)
      simp only [List.map_map, List.length_map] at hsplit ⊢
      refine le_trans hsplit ?_
      omega
    · obtain ⟨bonds, hbonds, rfl⟩ := List.sublist_map_iff.mp hrest
      have hsum : (snapshot.bond :: bonds.map Bond.amount).sum ≤ snapshot.total := by
        have hle := (hbonds.map Bond.amount).sum_le_sum fun a _ => Nat.zero_le a
        have hall := hs.stake_le
        rw [List.sum_cons]
        omega
      have hsplit := Perbill.sum_split_le htotal hsum (List.cons_ne_nil _ _) (total - com)
      simp only [List.map_map, List.length_map, List.map_cons, List.sum_cons, List.length_cons,
        Nat.add_sub_cancel] at hsplit ⊢
      have hfun : (Prod.snd ∘ fun bond : Bond AccountId => (bond.owner,
          (Perbill.fromRational bond.amount snapshot.total).mul (total - com))) =
          (fun a => (Perbill.fromRational a snapshot.total).mul (total - com)) ∘ Bond.amount := rfl
      rw [hfun]
      omega

/-- All payments of one reward are together at most the reward, but for rounding. -/
lemma Shares.sum_amounts_le (h : info.roundIssuance ≤ info.totalStakingReward)
    (hs : snapshot.Backed) :
    2 * ((Shares.of commission info pts totalPoints snapshot).validator +
        ((Shares.of commission info pts totalPoints snapshot).nominators.map Prod.snd).sum) ≤
      2 * (Shares.of commission info pts totalPoints snapshot).total +
        (snapshot.nominations.length + 1) := by
  have hall : 2 * (Shares.of commission info pts totalPoints snapshot).amounts.sum ≤ _ :=
    Shares.sum_paid_le h hs (List.cons_ne_nil _ _) (List.Sublist.refl _)
  have hlength : (Shares.of commission info pts totalPoints snapshot).nominators.length ≤
      snapshot.nominations.length := by
    simp only [Shares.of]
    split_ifs
    · exact Nat.zero_le _
    · rw [List.length_map]
  simp only [Shares.amounts, List.sum_cons, List.length_cons, List.length_map] at hall
  omega

end Payout

/-! ## Snapshots -/

section Snapshots

variable [LinearOrder AccountId] {cfg : Config AccountId} {rm : RelayManager AccountId R}
  {s s' : State AccountId R} {P : ValidatorSnapshot AccountId → Prop} {l : Ledger AccountId}

/-- Every snapshot that is stored has the property. -/
def State.Snaps (P : ValidatorSnapshot AccountId → Prop) (s : State AccountId R) : Prop :=
  ∀ k snapshot, s.rewards.atStake.get k = some snapshot → P snapshot

/-- Every snapshot that could be taken of a candidate has the property. -/
def Ledger.Snappable (P : ValidatorSnapshot AccountId → Prop) (l : Ledger AccountId) : Prop :=
  ∀ c m top, l.candidateInfo.get c = some m → l.topNominations.get c = some top →
    P ⟨m.bond, top.nominations, m.votingPower⟩

lemma State.collectValidatorSnapshot_snaps {now : ℕ} {validators : List AccountId}
    {counts : ℕ × ℕ × ℕ} (h : s.collectValidatorSnapshot now validators = some (counts, s'))
    (hs : s.Snaps P) (hl : s.ledger.Snappable P) : s'.Snaps P ∧ s'.ledger.Snappable P := by
  refine foldlM_invariant (P := fun acc => acc.2.Snaps P ∧ acc.2.ledger.Snappable P)
    (fun acc v acc' hacc hv => ?_) h ⟨hs, hl⟩
  simp only [State.countSnapshot, Option.bind_eq_bind, Option.bind_eq_some_iff, Option.pure_def,
    Option.some.injEq] at hv
  obtain ⟨m, hm, top, htop, rfl⟩ := hv
  obtain ⟨hsnaps, hsnappable⟩ := hacc
  refine ⟨fun k snapshot hk => ?_, fun c m' top' hm' htop' => ?_⟩
  · simp only [State.selectCandidate, State.putCandidate, State.withLedger,
      StorageMap.get_insert] at hk
    split_ifs at hk
    · obtain rfl := Option.some.inj hk
      exact hsnappable v m top hm htop
    · exact hsnaps k snapshot hk
  · simp only [State.selectCandidate, State.putCandidate, State.withLedger,
      StorageMap.get_insert] at hm'
    split_ifs at hm' with hc
    · obtain rfl := Option.some.inj hm'
      exact hsnappable c m top' (hc ▸ hm) htop'
    · exact hsnappable c m' top' hm' htop'

lemma State.updateTopCandidates_snaps {now : ℕ} {full basic : List AccountId}
    {counts : ℕ × ℕ × ℕ} (h : s.updateTopCandidates rm now full basic = some (counts, s'))
    (hs : s.Snaps P) (hl : s.ledger.Snappable P) : s'.Snaps P := by
  simp only [State.updateTopCandidates, Option.bind_eq_bind, Option.bind_eq_some_iff,
    Option.pure_def, Option.some.injEq, Prod.exists, Prod.mk.injEq] at h
  obtain ⟨c₁, c₂, c₃, s₁, h₁, d₁, d₂, d₃, s₂, h₂, -, rfl⟩ := h
  obtain ⟨hs₁, hl₁⟩ := State.collectValidatorSnapshot_snaps h₁ hs hl
  exact (State.collectValidatorSnapshot_snaps h₂ hs₁ hl₁).1

omit [LinearOrder AccountId] in
lemma State.Snaps.snapshot (hs : s.Snaps P) (h0 : P .default) (r : ℕ) (v : AccountId) :
    P (s.snapshot r v) := by
  rw [State.snapshot, StorageMap.getD]
  cases h : s.rewards.atStake.get (r, v) with
  | none => exact h0
  | some snapshot => exact hs _ _ h

/-- Snapshots follow a controller that changes. -/
lemma State.applyControllerSet_snaps (h0 : P .default) (now : ℕ)
    (c : DelayedControllerSet AccountId) (hs : s.Snaps P) :
    (s.applyControllerSet rm now c).Snaps P := by
  rw [State.applyControllerSet]
  cases s.ledger.candidateInfo.get c.old with
  | none => exact hs
  | some m =>
      intro k snapshot hk
      simp only [State.moveRewards, StorageMap.get_insert, StorageMap.get_remove] at hk
      split_ifs at hk
      · obtain rfl := Option.some.inj hk
        exact hs.snapshot h0 now c.old
      · exact hs k snapshot hk

lemma State.newRound_snaps (h0 : P .default)
    (hsound : ∀ l : Ledger AccountId, LedgerInv cfg l → l.Snappable P) {now : ℕ}
    {full basic : List AccountId} (hl : LedgerInv cfg s.ledger) (hs : s.Snaps P)
    (h : s.newRound cfg rm now full basic = some s') : s'.Snaps P := by
  simp only [State.newRound, State.selectForRound, Option.map_eq_some_iff, Option.bind_eq_bind,
    Option.bind_eq_some_iff, Option.pure_def, Option.some.injEq, Prod.exists, Prod.mk.injEq] at h
  obtain ⟨count, s₁, ⟨validators, nominations, stake, s₂, h₂, rfl, rfl⟩, rfl⟩ := h
  let s₀ : State AccountId R := { s with
    relay := rm.handleDelayedRelayerSets
      (rm.refreshRound s.relay (s.round.updateRound s.session now).currentRoundIndex)
      (s.round.updateRound s.session now).currentRoundIndex
    ledger := s.ledger.resetCandidateStates }
  obtain ⟨-, -, hstake, hledger⟩ :=
    State.prepareStakingPayouts_frame cfg s₀ (s.round.updateRound s.session now).currentRoundIndex
  have hreset : LedgerInv cfg s.ledger.resetCandidateStates :=
    (s.ledger.resetCandidateStates_quiet).preserves.inv hl
  have hselected : s₂.Snaps P := by
    refine State.updateTopCandidates_snaps h₂ ?_ ?_
    · intro k snapshot hk
      exact hs k snapshot (hstake ▸ hk)
    · rw [hledger]
      exact hsound _ hreset
  rw [State.enterRound, State.handleDelayedControllerSets]
  refine List.foldlRecOn (motive := fun t => State.Snaps P t) _ _ ?_ fun t ht c _ =>
    State.applyControllerSet_snaps h0 _ c ht
  exact hselected

/-- A payout takes snapshots out. -/
lemma PayoutStep.snaps {round : ℕ} {drained : Option AccountId} {paid : Option (AccountId × ℕ)}
    (h : PayoutStep cfg s round drained paid s') (hs : s.Snaps P) : s'.Snaps P := by
  cases h with
  | idle => exact hs
  | closed => exact hs
  | lost => exact hs
  | paid =>
      intro k snapshot hk
      simp only [State.withLedger, State.takeAtStake, State.takeAwarded, StorageMap.get_remove] at hk
      split_ifs at hk
      exact hs k snapshot hk

lemma State.step_snaps {i : Step AccountId R} (h0 : P .default)
    (hsound : ∀ l : Ledger AccountId, LedgerInv cfg l → l.Snappable P)
    (hl : LedgerInv cfg s.ledger) (hs : s.Snaps P) (hstep : s.step cfg rm i = some s') :
    s'.Snaps P := by
  cases i with
  | onInitialize n drained =>
      obtain ⟨⟨paid, s₁⟩, h₁, rfl⟩ := Option.map_eq_some_iff.mp hstep
      obtain ⟨snapshot, -, hpay⟩ := State.onInitialize_cases h₁
      refine hpay.snaps ?_
      exact hs
  | noteAuthor author =>
      obtain rfl := Option.some.inj hstep
      exact hs
  | newSession now newIndex validators hasKeys =>
      obtain ⟨⟨out, s₁⟩, h₁, rfl⟩ := Option.map_eq_some_iff.mp hstep
      simp only [State.newSession, State.tryNewRound, Option.bind_eq_bind, Option.bind_eq_some_iff,
        Option.pure_def, Option.some.injEq, Prod.mk.injEq] at h₁
      obtain ⟨s₂, h₂, -, rfl⟩ := h₁
      split_ifs at h₂
      · have henter : LedgerInv cfg (s.enterSession now newIndex validators).ledger :=
          (s.ledger.computeProductivity_quiet _ _).preserves.inv hl
        have hsnaps : s₂.Snaps P := State.newRound_snaps h0 hsound henter hs h₂
        exact hsnaps
      · obtain rfl := Option.some.inj h₂
        exact hs
  | _ =>
      have haside := State.step_aside hl rfl hstep
      rw [State.Snaps, haside.rewards]
      exact hs

/-- What is true of the candidates is true of the snapshots. -/
lemma ReachableIf.snaps {cond : State AccountId R → Step AccountId R → Prop} (h0 : P .default)
    (hsound : ∀ l : Ledger AccountId, LedgerInv cfg l → l.Snappable P)
    (h : ReachableIf cfg rm cond s) : s.Snaps P := by
  have hall : StateInv cfg s ∧ s.Snaps P := by
    refine Reachable.invariant (P := fun t => StateInv cfg t ∧ State.Snaps P t) (fun t ht => ?_)
      (fun t i t' ht _ hstep => ?_) h
    · refine ⟨.of_empty ht.founded.inv ht.founded.sets, ?_⟩
      obtain ⟨g, hg⟩ := ht
      simp only [GenesisConfig.build, Option.bind_eq_bind, Option.bind_eq_some_iff, Option.pure_def,
        Option.some.injEq, Prod.exists] at hg
      obtain ⟨s₁, h₁, s₂, h₂, validators, nominations, stake, s₃, h₃, rfl⟩ := hg
      have hblank : s₂.rewards = ⟨∅, ∅, ∅, ∅, ∅, ∅⟩ :=
        (GenesisConfig.nominateAll_rewards h₂).trans (GenesisConfig.joinAll_rewards h₁)
      have hsnaps : s₃.Snaps P := by
        refine State.updateTopCandidates_snaps h₃ (fun k snapshot hk => ?_)
          (hsound _ (GenesisConfig.nominated_founded h₁ h₂).inv)
        replace hk : s₂.rewards.atStake.get k = some snapshot := hk
        rw [hblank] at hk
        cases hk
      exact hsnaps
    · refine ⟨(State.step_keeps hstep).inv ht.1, ?_⟩
      exact State.step_snaps h0 hsound ht.1.ledger ht.2 hstep
  exact hall.2

omit [LinearOrder AccountId] in
/-- The voting power of a candidate covers the stake of its snapshot, and is not zero if there are
nominations, since no nomination is. -/
lemma LedgerInv.snappable (hl : LedgerInv cfg l) : l.Snappable ValidatorSnapshot.Backed := by
  intro c m top hm htop
  obtain ⟨top', bottom, htop', hbottom, hv⟩ := hl.books.board c m hm
  obtain rfl := Option.some.inj (htop.symm.trans htop')
  have hpower : m.votingPower = m.bond + (top.nominations.map Bond.amount).sum := hv.votingPower_eq
  refine ⟨hpower.ge, fun hne => ?_⟩
  obtain ⟨b, hb⟩ := List.exists_mem_of_ne_nil _ hne
  have hamount : cfg.minNomination ≤ b.amount := by
    have hmem : (⟨b.owner, b.amount⟩ : Bond AccountId) ∈ l.bonds c := by
      rw [Ledger.bonds_eq htop hbottom]
      exact List.mem_append_left _ hb
    rw [← hl.books.agree] at hmem
    cases hst : l.nominatorState.get b.owner with
    | none => simp [Ledger.portfolio, hst] at hmem
    | some st =>
        rw [Ledger.portfolio_of_some hst] at hmem
        exact (hl.records _ _ hst).min_le _ _ hmem
  have hsum : b.amount ≤ (top.nominations.map Bond.amount).sum :=
    List.single_le_sum (fun _ _ => Nat.zero_le _) _ (List.mem_map_of_mem hb)
  have hmin := cfg.one_le_minNomination
  show 0 < m.votingPower
  omega

omit [LinearOrder AccountId] in
lemma ValidatorSnapshot.Backed.default :
    (ValidatorSnapshot.default : ValidatorSnapshot AccountId).Backed :=
  ⟨le_rfl, fun hne => absurd rfl hne⟩

end Snapshots

end BifrostNode.Staking
