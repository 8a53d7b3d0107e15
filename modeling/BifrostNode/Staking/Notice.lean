import BifrostNode.Staking.Penalties

/-!
# Notice periods

A self-bond comes back in two ways, and both take notice.  A decrease is scheduled and executed when its
round has come, and so is the exit of the candidate.

* **StandsBy**: what nominators do and what a payout does leaves the requests of every candidate alone, and
  its self-bond does not shrink.
* **Held**: the candidate of a stash has at least a self-bond, and whatever it has asked for is due in some
  round or later.  It may have asked under another account, so it is the stash that is followed.

Until that round comes, the self-bond stays where it is, and stays reserved (`bond_held`).  Slashes do not
wait, and are left out.
-/

namespace BifrostNode.Staking

open Transition

variable {AccountId R : Type} [LinearOrder AccountId]

/-! ## Stakes of others -/

/-- Nobody's self-bond shrinks, and what candidates have asked for is the same. -/
def StandsBy (l l' : Ledger AccountId) : Prop :=
  ∀ c m, l.candidateInfo.get c = some m → ∃ m', l'.candidateInfo.get c = some m' ∧
    m.bond ≤ m'.bond ∧ m'.status = m.status ∧ m'.request = m.request

namespace StandsBy

variable {cfg : Config AccountId} {l l₁ l₂ : Ledger AccountId} {c : AccountId}
  {m m' : CandidateMetadata AccountId}

omit [LinearOrder AccountId] in
lemma refl (l : Ledger AccountId) : StandsBy l l := fun _ m hm => ⟨m, hm, le_rfl, rfl, rfl⟩

omit [LinearOrder AccountId] in
lemma trans (h₁ : StandsBy l l₁) (h₂ : StandsBy l₁ l₂) : StandsBy l l₂ := by
  intro c m hm
  obtain ⟨m₁, hm₁, hb₁, hs₁, hr₁⟩ := h₁ c m hm
  obtain ⟨m₂, hm₂, hb₂, hs₂, hr₂⟩ := h₂ c m₁ hm₁
  exact ⟨m₂, hm₂, hb₁.trans hb₂, hs₂.trans hs₁, hr₂.trans hr₁⟩

omit [LinearOrder AccountId] in
lemma of_eq (hinfo : l₁.candidateInfo = l.candidateInfo) : StandsBy l l₁ :=
  fun _ m hm => ⟨m, hinfo ▸ hm, le_rfl, rfl, rfl⟩

/-- One record is rewritten. -/
lemma write (hc : l.candidateInfo.get c = some m)
    (hinfo : l₁.candidateInfo = l.candidateInfo.insert c m') (hbond : m.bond ≤ m'.bond)
    (hstatus : m'.status = m.status) (hrequest : m'.request = m.request) : StandsBy l l₁ := by
  intro k mk hk
  rw [hinfo, StorageMap.get_insert]
  split_ifs with hkc
  · subst hkc
    obtain rfl := Option.some.inj (hc.symm.trans hk)
    exact ⟨m', rfl, hbond, hstatus, hrequest⟩
  · exact ⟨mk, hk, le_rfl, rfl, rfl⟩

/-- The copy that a board has moved nominations about in is written back. -/
lemma shuffled (hc : l.candidateInfo.get c = some m) (h : Shuffles c l₁ m l₂ m')
    (hinfo : l₁.candidateInfo = l.candidateInfo) :
    StandsBy l { l₂ with candidateInfo := l₂.candidateInfo.insert c m' } := by
  refine write hc ?_ h.bond.ge (congrArg Prod.fst h.standing) h.request
  rw [h.info, hinfo]

lemma modifyCandidate {f : CandidateMetadata AccountId → CandidateMetadata AccountId}
    (hf : ∀ m, (f m).bond = m.bond ∧ (f m).status = m.status ∧ (f m).request = m.request)
    (l : Ledger AccountId) (c : AccountId) : StandsBy l (l.modifyCandidate c f) := by
  rw [Ledger.modifyCandidate]
  cases hc : l.candidateInfo.get c with
  | none => exact .refl l
  | some m => exact .write hc rfl (hf m).1.ge (hf m).2.1 (hf m).2.2

lemma foldl_modifyCandidate {ι : Type} {who : ι → AccountId}
    {f : ι → CandidateMetadata AccountId → CandidateMetadata AccountId}
    (hf : ∀ i m, (f i m).bond = m.bond ∧ (f i m).status = m.status ∧ (f i m).request = m.request) :
    ∀ (is : List ι) (l : Ledger AccountId),
      StandsBy l (is.foldl (fun l i => l.modifyCandidate (who i) (f i)) l) := by
  intro is
  induction is with
  | nil => exact .refl
  | cons i is ih =>
      intro l
      exact (StandsBy.modifyCandidate (hf i) l (who i)).trans (ih _)

end StandsBy

namespace Ledger

variable {cfg : Config AccountId} {l : Ledger AccountId} {c n : AccountId}

lemma nominate_stands (amount i j : ℕ) : Returns (StandsBy l) (l.nominate cfg n c amount i j) := by
  intro l' h
  simp only [nominate, bind_eq_ok, okOr_eq_ok, ensure_eq_ok, pure_eq_ok, exists_const,
    Prod.exists] at h
  obtain ⟨-, st, -, m, hm, -, added, less, m', l₁, hadd, currency, -, rfl⟩ := h
  have hshuffle := CandidateMetadata.addNomination_shuffles _ _ hadd
  exact (StandsBy.shuffled hm hshuffle rfl).trans (.of_eq rfl)

lemma nominatorLeavesCandidate_stands (amount : ℕ) :
    Returns (StandsBy l) (l.nominatorLeavesCandidate cfg c n amount) := by
  intro l' h
  simp only [nominatorLeavesCandidate, bind_eq_ok, okOr_eq_ok, pure_eq_ok, Prod.exists] at h
  obtain ⟨m, hm, b, m', l₁, hrm, rfl⟩ := h
  have hshuffle := CandidateMetadata.rmNominationIfExists_shuffles _ _ hrm
  exact (StandsBy.shuffled hm hshuffle rfl).trans (.of_eq rfl)

/-- `increase_nomination`, whether it succeeds or not. -/
lemma increaseNomination_stands (st : Nominator AccountId) (c : AccountId) (amount : ℕ) :
    StandsBy l (st.increaseNomination cfg l c amount).2 := by
  cases hb : st.nominations.get c with
  | none =>
      simp only [Nominator.increaseNomination, hb]
      exact .refl l
  | some before =>
      cases hm : l.candidateInfo.get c with
      | none =>
          simp only [Nominator.increaseNomination, hb, hm]
          exact .refl l
      | some m =>
          cases hcur : l.currency.reserve st.id amount with
          | error e =>
              simp only [Nominator.increaseNomination, hb, hm, Nominator.setNomination_id, hcur]
              exact .refl l
          | ok currency =>
              cases hinc : m.increaseNomination cfg { l with currency := currency } c st.id before
                  amount with
              | error e =>
                  simp only [Nominator.increaseNomination, hb, hm, Nominator.setNomination_id, hcur,
                    hinc]
                  exact .of_eq rfl
              | ok r =>
                  obtain ⟨b, m', l₁⟩ := r
                  simp only [Nominator.increaseNomination, hb, hm, Nominator.setNomination_id, hcur,
                    hinc]
                  have hshuffle := CandidateMetadata.increaseNomination_shuffles _ _ _ hinc
                  have hinfo : l₁.candidateInfo = l.candidateInfo := hshuffle.info
                  refine .write hm ?_ hshuffle.bond.ge (congrArg Prod.fst hshuffle.standing)
                    hshuffle.request
                  simp only [Ledger.settle, Ledger.updateActive_candidateInfo, hinfo]

lemma nominatorBondMore_stands (more : ℕ) :
    Returns (StandsBy l) (l.nominatorBondMore cfg n c more) := by
  intro l' h
  simp only [nominatorBondMore, bind_eq_ok, okOr_eq_ok, pure_eq_ok] at h
  obtain ⟨st, -, -, -, rfl⟩ := h
  exact increaseNomination_stands st c more

lemma executeNominationRequest_stands (now : ℕ) :
    Returns (StandsBy l) (l.executeNominationRequest cfg now n c) := by
  refine .bind fun st => .bind fun request => .bind fun _ => ?_
  cases request.action with
  | revoke =>
      exact .bind fun _ => .bind_of (Ledger.nominatorLeavesCandidate_stands _) fun l₁ h =>
        .pure (h.trans (.of_eq rfl))
  | decrease =>
      intro l' h
      simp only [Nominator.executeDecrease, bind_eq_ok, okOr_eq_ok, ensure_eq_ok, pure_eq_ok,
        exists_const, Prod.exists] at h
      obtain ⟨before, -, -, -, -, m, hm, b, m', l₁, hdec, rfl⟩ := h
      have hshuffle := CandidateMetadata.decreaseNomination_shuffles _ _ _ hdec
      have hinfo : l₁.candidateInfo = l.candidateInfo := hshuffle.info
      refine .write hm ?_ hshuffle.bond.ge (congrArg Prod.fst hshuffle.standing) hshuffle.request
      simp only [Ledger.settle, hinfo]

/-- The loop over the nominations of a nominator that leaves. -/
lemma leaveAll_stands :
    ∀ (bonds : List (AccountId × ℕ)) (l : Ledger AccountId),
      StandsBy l (leaveAll cfg n l bonds) := by
  intro bonds
  induction bonds with
  | nil => exact .refl
  | cons bond bonds ih =>
      intro l
      rw [leaveAll, List.foldl_cons, ← leaveAll]
      cases hleave : l.nominatorLeavesCandidate cfg bond.1 n bond.2 with
      | ok l₁ => exact (nominatorLeavesCandidate_stands _ _ hleave).trans (ih _)
      | error e =>
          have hlog : StandsBy l { l with warnings := .nominatorLeaving n bond.1 e :: l.warnings } :=
            .of_eq rfl
          exact hlog.trans (ih _)

lemma executeLeaveNominators_stands (now count : ℕ) :
    Returns (StandsBy l) (l.executeLeaveNominators cfg now n count) :=
  .bind fun _ => .bind fun _ => .pure ((leaveAll_stands _ l).trans (.of_eq rfl))

lemma updateNominator_stands {f : Nominator AccountId → Except Error (Nominator AccountId)} :
    Returns (StandsBy l) (l.updateNominator n f) := .bind fun _ => .bind fun _ => .pure (.of_eq rfl)

lemma candidateBondMore_stands (more : ℕ) : Returns (StandsBy l) (l.candidateBondMore c more) := by
  intro l' h
  simp only [candidateBondMore, CandidateMetadata.bondMore, bind_eq_ok, ensure_eq_ok, pure_eq_ok,
    exists_const, Prod.exists, Prod.mk.injEq] at h
  obtain ⟨controller, m, hb, -, m', l₁, ⟨currency, -, rfl, rfl⟩, rfl⟩ := h
  have hmore : m.bond ≤ { m with bond := m.bond + more, votingPower := m.votingPower + more }.bond :=
    Nat.le_add_right _ _
  refine .write (bonded_spec hb).2 ?_ hmore rfl rfl
  simp

lemma setCandidateRewardDst_stands (dst : RewardDestination) :
    Returns (StandsBy l) (l.setCandidateRewardDst c dst) := by
  intro l' h
  simp only [setCandidateRewardDst, updateCandidate, bind_eq_ok, okOr_eq_ok, ensure_eq_ok, pure_eq_ok,
    exists_const] at h
  obtain ⟨m, hm, m', ⟨-, rfl⟩, rfl⟩ := h
  exact .write hm rfl le_rfl rfl rfl

lemma mintReward_stands (amount : ℕ) (dest : AccountId) : StandsBy l (l.mintReward amount dest) :=
  .of_eq (l.mintReward_info amount dest).1

lemma handleValidatorRewardPayout_stands (stash : AccountId) (reward : ℕ) :
    Returns (StandsBy l) (l.handleValidatorRewardPayout c stash reward) := by
  intro l' h
  have hinfo := (l.mintReward_info reward stash).1
  cases hm : l.candidateInfo.get c with
  | none =>
      simp only [handleValidatorRewardPayout, hm, Except.ok.injEq] at h
      exact h ▸ .refl l
  | some m =>
      rw [handleValidatorRewardPayout, hm] at h
      dsimp only at h
      cases hdst : (m.incrementAwardedTokens reward).rewardDst with
      | staked =>
          simp only [hdst, CandidateMetadata.bondMore, bind_eq_ok, pure_eq_ok, Prod.exists,
            Prod.mk.injEq] at h
          obtain ⟨m', l₁, ⟨currency, -, rfl, rfl⟩, rfl⟩ := h
          have hmore : m.bond ≤ { m.incrementAwardedTokens reward with
              bond := (m.incrementAwardedTokens reward).bond + reward
              votingPower := (m.incrementAwardedTokens reward).votingPower + reward }.bond :=
            Nat.le_add_right _ _
          refine .write hm ?_ hmore rfl rfl
          simp [hdst, hinfo]
      | account =>
          simp only [hdst, Except.ok.injEq] at h
          subst h
          exact .write hm (congrArg (fun m => StorageMap.insert m c _) hinfo) le_rfl rfl rfl

lemma handleNominatorRewardPayout_stands (reward : ℕ) :
    StandsBy l (l.handleNominatorRewardPayout cfg c n reward) := by
  rw [handleNominatorRewardPayout]
  cases hn : l.nominatorState.get n with
  | none => exact .refl l
  | some st =>
      dsimp only
      split_ifs
      · refine (mintReward_stands reward n).trans ?_
        generalize l.mintReward reward n = l₀
        cases (st.incrementAwardedTokens c reward).rewardDst with
        | staked =>
            have hinc : StandsBy l₀
                ((st.incrementAwardedTokens c reward).increaseNomination cfg l₀ c reward).2 :=
              increaseNomination_stands (st.incrementAwardedTokens c reward) c reward
            dsimp only
            split
            · rename_i st' l₁ heq
              rw [heq] at hinc
              exact hinc.trans (.of_eq rfl)
            · rename_i heq
              rw [heq] at hinc
              exact hinc.trans (.of_eq rfl)
        | account => exact .of_eq rfl
      · exact .refl l

lemma payNominators_stands (total due : ℕ) :
    ∀ (bonds : List (Bond AccountId)) (l : Ledger AccountId),
      StandsBy l (l.payNominators cfg c total due bonds) := by
  intro bonds
  induction bonds with
  | nil => exact .refl
  | cons b bonds ih =>
      intro l
      rw [payNominators, List.foldl_cons, ← payNominators]
      dsimp only
      split_ifs
      · exact ih l
      · exact (handleNominatorRewardPayout_stands _).trans (ih _)

/-- **The payments of one validator** shrink nobody's self-bond. -/
lemma payValidator_stands {m : CandidateMetadata AccountId} {info : DelayedPayout}
    {pts points paid : ℕ} {snapshot : ValidatorSnapshot AccountId} {l' : Ledger AccountId}
    (h : l.payValidator cfg c m info pts points snapshot = some (paid, l')) : StandsBy l l' := by
  simp only [payValidator] at h
  split_ifs at h
  · simp only [Option.map_eq_some_iff, Prod.mk.injEq] at h
    obtain ⟨l₁, h₁, -, rfl⟩ := h
    exact handleValidatorRewardPayout_stands _ _ _ (toOption_eq_some.mp h₁)
  · simp only [Option.map_eq_some_iff, Prod.mk.injEq] at h
    obtain ⟨l₁, h₁, -, rfl⟩ := h
    exact (handleValidatorRewardPayout_stands _ _ _ (toOption_eq_some.mp h₁)).trans
      (payNominators_stands _ _ _ _)

end Ledger

/-! ## Rounds -/

section Rounds

variable {cfg : Config AccountId} {rm : RelayManager AccountId R} {s s' : State AccountId R}

/-- The loop that takes the snapshots of the selected candidates. -/
lemma State.collectValidatorSnapshot_stands {now : ℕ} {validators : List AccountId}
    {counts : ℕ × ℕ × ℕ} (h : s.collectValidatorSnapshot now validators = some (counts, s')) :
    StandsBy s.ledger s'.ledger := by
  refine foldlM_invariant (P := fun acc : (ℕ × ℕ × ℕ) × State AccountId R =>
    StandsBy s.ledger acc.2.ledger) (fun acc v acc' hacc hv => ?_) h (.refl s.ledger)
  simp only [State.countSnapshot, Option.bind_eq_bind, Option.bind_eq_some_iff, Option.pure_def,
    Option.some.injEq] at hv
  obtain ⟨m, hm, top, -, rfl⟩ := hv
  have hmark : m.bond ≤ (m.setIsSelected true).bond := le_rfl
  exact hacc.trans (.write hm rfl hmark rfl rfl)

/-- What happens in a round change before the controller changes. -/
lemma State.selectForRound_stands {round : RoundInfo} {full basic : List AccountId} {count now : ℕ}
    {s₁ s₃ : State AccountId R} (h₁ : s.selectForRound cfg rm round full basic = some (count, s₁))
    (h₃ : s₃ = (s₁.startRound rm round count).handleDelayedCommissionSets now) :
    StandsBy s.ledger s₃.ledger := by
  subst h₃
  simp only [State.selectForRound, State.updateTopCandidates, Option.bind_eq_bind,
    Option.bind_eq_some_iff, Option.pure_def, Option.some.injEq, Prod.exists, Prod.mk.injEq] at h₁
  obtain ⟨n, k, v, s₂, ⟨c₁, c₂, c₃, t₁, ht₁, d₁, d₂, d₃, t₂, ht₂, -, rfl⟩, -, rfl⟩ :=
    h₁
  have hreset : StandsBy s.ledger s.ledger.resetCandidateStates := by
    intro c m hm
    refine ⟨m.resetBlocksProduced.resetProductivity.setIsSelected false, ?_, le_rfl, rfl, rfl⟩
    show (s.ledger.candidateInfo.mapVals _).get c = _
    rw [StorageMap.get_mapVals, hm]
    rfl
  have hfull := State.collectValidatorSnapshot_stands ht₁
  rw [State.prepareStakingPayouts_ledger] at hfull
  have hbasic := State.collectValidatorSnapshot_stands ht₂
  refine hreset.trans (hfull.trans (hbasic.trans
    (StandsBy.foldl_modifyCandidate (fun c m => ?_) _ t₂.ledger)))
  exact ⟨rfl, rfl, rfl⟩

end Rounds

/-! ## A stash that has to wait -/

/-- At least `bond` is bonded, and what has been asked for is due in round `due` or later. -/
structure CandidateMetadata.Held (m : CandidateMetadata AccountId) (bond due : ℕ) : Prop where
  bond : bond ≤ m.bond
  leaving : ∀ w, m.status = .leaving w → due ≤ w
  request : ∀ r, m.request = some r → due ≤ r.whenExecutable

/-- The controller of the stash is `c`, which is held. -/
structure HeldAs (l : Ledger AccountId) (stash c : AccountId) (bond due : ℕ) : Prop where
  stash : l.bondedStash.get stash = some c
  record : ∃ m, l.candidateInfo.get c = some m ∧ m.Held bond due

/-- The step reports no offence of the validator of the stash. -/
def Step.Spares (stash : AccountId) (s : State AccountId R) : Step AccountId R → Prop
  | .onOffence offenders _ => ∀ o ∈ offenders, s.ledger.bondedStash.get stash ≠ some o.1
  | _ => True

section Held

variable {cfg : Config AccountId} {rm : RelayManager AccountId R} {s s' : State AccountId R}
  {l l' : Ledger AccountId} {stash c k : AccountId} {m m' : CandidateMetadata AccountId}
  {bond due : ℕ}

namespace HeldAs

omit [LinearOrder AccountId] in
lemma stands (h : HeldAs l stash c bond due) (hstash : l'.bondedStash = l.bondedStash)
    (hl : StandsBy l l') : HeldAs l' stash c bond due := by
  obtain ⟨m, hm, hheld⟩ := h.record
  obtain ⟨m', hm', hbond, hstatus, hrequest⟩ := hl c m hm
  exact ⟨hstash ▸ h.stash, m', hm', hheld.bond.trans hbond, fun w hw => hheld.leaving w (hstatus ▸ hw),
    fun r hr => hheld.request r (hrequest ▸ hr)⟩

/-- A record is rewritten, of somebody else or without loss. -/
lemma put (h : HeldAs l stash c bond due) (hstash : l'.bondedStash = l.bondedStash)
    (hm : l.candidateInfo.get k = some m) (hinfo : l'.candidateInfo = l.candidateInfo.insert k m')
    (hheld : m.Held bond due → m'.Held bond due) : HeldAs l' stash c bond due := by
  refine ⟨hstash ▸ h.stash, ?_⟩
  obtain ⟨mc, hmc, hc⟩ := h.record
  rw [hinfo, StorageMap.get_insert]
  split_ifs with hck
  · subst hck
    obtain rfl := Option.some.inj (hm.symm.trans hmc)
    exact ⟨m', rfl, hheld hc⟩
  · exact ⟨mc, hmc, hc⟩

end HeldAs

/-- A decrease is executed when its round has come. -/
lemma Ledger.executeCandidateBondLess_info {now : ℕ} {who : AccountId}
    (h : l.executeCandidateBondLess now who = .ok l') :
    ∃ controller m request, l.candidateInfo.get controller = some m ∧ m.request = some request ∧
      request.whenExecutable ≤ now ∧
      l'.candidateInfo = l.candidateInfo.insert controller (m.lessBond request.amount) := by
  simp only [executeCandidateBondLess, CandidateMetadata.executeBondLess, bind_eq_ok, okOr_eq_ok,
    ensure_eq_ok, pure_eq_ok, exists_const, Prod.exists, Prod.mk.injEq] at h
  obtain ⟨controller, m, hb, m', l₁, ⟨request, hrequest, hdue, rfl, rfl⟩, rfl⟩ := h
  refine ⟨controller, m, request, (bonded_spec hb).2, hrequest, hdue, ?_⟩
  simp

/-- A call that leaves the stashes alone. -/
lemma HeldAs.onLedger {fresh exact : Prop} {r : Except Error (Ledger AccountId)}
    (hl : LedgerInv cfg s.ledger) (hheld : HeldAs s.ledger stash c bond due)
    (hkeeps : ∀ l, r = .ok l → Preserves cfg fresh exact s.ledger l)
    (hr : Returns (StandsBy s.ledger) r) (h : s.onLedger r = .ok s') :
    HeldAs s'.ledger stash c bond due := by
  cases r with
  | error e => cases h
  | ok l =>
      obtain rfl := Except.ok.inj h
      exact hheld.stands ((hkeeps l rfl).steady hl).stashes (hr l rfl)

/-- The requests of candidates about their own self-bond. -/
lemma HeldAs.updateCandidate
    {f : CandidateMetadata AccountId → Except Error (CandidateMetadata AccountId)}
    (hheld : HeldAs s.ledger stash c bond due)
    (hf : ∀ m, m.Held bond due → Returns (fun m' => m'.Held bond due) (f m))
    (h : s.onLedger (s.ledger.updateCandidate k f) = .ok s') : HeldAs s'.ledger stash c bond due := by
  cases hr : s.ledger.updateCandidate k f with
  | error e =>
      rw [hr] at h
      cases h
  | ok l =>
      rw [hr] at h
      obtain rfl := Except.ok.inj h
      simp only [Ledger.updateCandidate, bind_eq_ok, okOr_eq_ok, pure_eq_ok] at hr
      obtain ⟨m, hm, m', hm', rfl⟩ := hr
      exact hheld.put rfl hm rfl fun hc => hf m hc m' hm'

/-- Whoever joins has neither the stash nor the controller of a candidate. -/
lemma State.joinCandidates_heldAs {who controller : AccountId} {relayer : Option AccountId}
    {amount count : ℕ} (hheld : HeldAs s.ledger stash c bond due)
    (h : s.joinCandidates cfg rm who controller relayer amount count = .ok s') :
    HeldAs s'.ledger stash c bond due := by
  obtain ⟨mc, hmc, hc⟩ := hheld.record
  simp only [State.joinCandidates, Ledger.join, Ledger.tryInsertPool, bind_eq_ok, ensure_eq_ok,
    pure_eq_ok, exists_const] at h
  obtain ⟨hbonded, hfree, -, -, -, -, -, currency, -, relay, -, l, ⟨l₁, ⟨-, rfl⟩, rfl⟩, rfl⟩ := h
  have hstash : stash ≠ who := by
    rintro rfl
    rw [hheld.stash] at hbonded
    cases hbonded
  have hne : c ≠ controller := by
    rintro rfl
    rw [hmc] at hfree
    cases hfree
  exact ⟨(StorageMap.get_insert_of_ne _ hstash _).trans hheld.stash, mc,
    (StorageMap.get_insert_of_ne _ hne _).trans hmc, hc⟩

/-- The exit of the candidate is not due, so it is somebody else who leaves. -/
lemma State.executeLeaveCandidates_heldAs {who : AccountId} {count : ℕ}
    (hheld : HeldAs s.ledger stash c bond due) (hnow : s.now < due)
    (h : s.executeLeaveCandidates rm who count = .ok s') : HeldAs s'.ledger stash c bond due := by
  obtain ⟨mc, hmc, hc⟩ := hheld.record
  simp only [State.executeLeaveCandidates, bind_eq_ok, ensure_eq_ok, pure_eq_ok, exists_const,
    Prod.exists] at h
  obtain ⟨controller, m, hbd, -, ⟨⟩, hcan, l, hleave, rfl⟩ := h
  obtain ⟨hbonded, hm⟩ := Ledger.bonded_spec hbd
  obtain ⟨hinfo, hstashes, -⟩ := Ledger.executeLeave_frame hleave
  have hne : c ≠ controller := by
    rintro rfl
    obtain rfl := Option.some.inj (hm.symm.trans hmc)
    rw [CandidateMetadata.canLeave] at hcan
    cases hstatus : m.status with
    | leaving w =>
        rw [hstatus] at hcan
        have hdue := hc.leaving w hstatus
        have hw : w ≤ s.now := ensure_eq_ok.mp hcan
        omega
    | active => rw [hstatus] at hcan; cases hcan
    | idle => rw [hstatus] at hcan; cases hcan
    | kickedOut => rw [hstatus] at hcan; cases hcan
  have hstash : stash ≠ who := by
    rintro rfl
    exact hne (Option.some.inj (hheld.stash.symm.trans hbonded))
  refine ⟨?_, mc, ?_, hc⟩
  · show l.bondedStash.get stash = some c
    rw [hstashes, StorageMap.get_remove_of_ne _ hstash, hheld.stash]
  · show l.candidateInfo.get c = some mc
    rw [hinfo, StorageMap.get_remove_of_ne _ hne, hmc]

/-- A new tier may ask for more, and takes nothing away. -/
lemma State.setValidatorTier_heldAs {who : AccountId} {more : ℕ} {new : TierType}
    {relayer : Option AccountId} (hheld : HeldAs s.ledger stash c bond due)
    (h : s.setValidatorTier cfg rm who more new relayer = .ok s') :
    HeldAs s'.ledger stash c bond due := by
  have hstashes := State.setValidatorTier_stashes h
  simp only [State.setValidatorTier, bind_eq_ok, ensure_eq_ok, pure_eq_ok, exists_const,
    Prod.exists] at h
  obtain ⟨controller, m, hbd, -, m', l, relay, hmore, rfl⟩ := h
  have hbond := State.bondForTier_ok hmore
  simp only [CandidateMetadata.bondMore, bind_eq_ok, pure_eq_ok, Prod.mk.injEq] at hbond
  obtain ⟨currency, -, rfl, rfl⟩ := hbond
  exact hheld.put hstashes (Ledger.bonded_spec hbd).2 (Ledger.updateActive_candidateInfo _ _ _)
    fun hm => ⟨hm.bond.trans (Nat.le_add_right _ _), hm.leaving, hm.request⟩

/-- The exit that is asked for will be due in time. -/
lemma State.scheduleLeaveCandidates_heldAs {who : AccountId} {count : ℕ}
    (hheld : HeldAs s.ledger stash c bond due) (hexit : due ≤ s.now + cfg.leaveCandidatesDelay)
    (h : s.scheduleLeaveCandidates cfg who count = .ok s') : HeldAs s'.ledger stash c bond due := by
  simp only [State.scheduleLeaveCandidates, Ledger.removeFromCandidatePool,
    CandidateMetadata.scheduleLeave, bind_eq_ok, okOr_eq_ok, ensure_eq_ok, pure_eq_ok,
    exists_const] at h
  obtain ⟨m, hm, -, -, -, ⟨⟩, -, m', ⟨-, -, rfl⟩, rfl⟩ := h
  refine hheld.put rfl hm rfl fun hk => ⟨hk.bond, fun w hw => ?_, hk.request⟩
  obtain rfl := ValidatorStatus.leaving.inj hw
  exact hexit

/-- The decrease of the candidate is not due, so it is that of somebody else. -/
lemma HeldAs.executeCandidateBondLess {who : AccountId} (hheld : HeldAs s.ledger stash c bond due)
    (hnow : s.now < due) (hstashes : s'.ledger.bondedStash = s.ledger.bondedStash)
    (h : s.onLedger (s.ledger.executeCandidateBondLess s.now who) = .ok s') :
    HeldAs s'.ledger stash c bond due := by
  cases hr : s.ledger.executeCandidateBondLess s.now who with
  | error e =>
      rw [hr] at h
      cases h
  | ok l =>
      rw [hr] at h
      obtain rfl := Except.ok.inj h
      obtain ⟨controller, m, request, hm, hrequest, hdue, hinfo⟩ :=
        Ledger.executeCandidateBondLess_info hr
      refine hheld.put hstashes hm hinfo fun hk => ?_
      have hwhen := hk.request request hrequest
      omega

/-- **Every call with a signed origin** before the round comes. -/
lemma State.signed_heldAs {who : AccountId} {call : Call AccountId} (hl : LedgerInv cfg s.ledger)
    (hheld : HeldAs s.ledger stash c bond due) (hnow : s.now < due)
    (hexit : due ≤ s.now + cfg.leaveCandidatesDelay)
    (hless : due ≤ s.now + cfg.candidateBondLessDelay) (h : s.signed cfg rm who call = .ok s') :
    HeldAs s'.ledger stash c bond due := by
  have hidle : s'.ledger = s.ledger → HeldAs s'.ledger stash c bond due := fun heq => heq ▸ hheld
  cases call with
  | joinCandidates controller relayer amount count => exact State.joinCandidates_heldAs hheld h
  | executeLeaveCandidates count => exact State.executeLeaveCandidates_heldAs hheld hnow h
  | setValidatorTier more new relayer => exact State.setValidatorTier_heldAs hheld h
  | scheduleLeaveCandidates count => exact State.scheduleLeaveCandidates_heldAs hheld hexit h
  | cancelLeaveCandidates count =>
      simp only [State.signed, State.cancelLeaveCandidates, Ledger.tryInsertPool, bind_eq_ok,
        okOr_eq_ok, ensure_eq_ok, pure_eq_ok, exists_const] at h
      obtain ⟨m, hm, -, -, l, ⟨-, rfl⟩, rfl⟩ := h
      exact hheld.put rfl hm rfl fun hk => ⟨hk.bond, (by rintro w ⟨⟩), hk.request⟩
  | goOnline =>
      simp only [State.signed, State.goOnline, Ledger.tryInsertPool, bind_eq_ok, okOr_eq_ok,
        ensure_eq_ok, pure_eq_ok, exists_const] at h
      obtain ⟨m, hm, -, -, l, ⟨-, rfl⟩, rfl⟩ := h
      exact hheld.put rfl hm rfl fun hk => ⟨hk.bond, (by rintro w ⟨⟩), hk.request⟩
  | goOffline =>
      simp only [State.signed, State.goOffline, Ledger.removeFromCandidatePool, bind_eq_ok,
        okOr_eq_ok, ensure_eq_ok, pure_eq_ok, exists_const] at h
      obtain ⟨m, hm, -, ⟨⟩, -, rfl⟩ := h
      exact hheld.put rfl hm rfl fun hk => ⟨hk.bond, (by rintro w ⟨⟩), hk.request⟩
  | scheduleCandidateBondLess less =>
      refine hheld.updateCandidate (fun m hm => .bind fun _ => ?_) h
      refine .bind fun _ => .bind fun _ => .bind fun _ => .pure ⟨hm.bond, hm.leaving, fun r hr => ?_⟩
      obtain rfl := Option.some.inj hr
      exact hless
  | cancelCandidateBondLess =>
      refine hheld.updateCandidate (f := fun state => state.cancelBondLess)
        (fun m hm => .bind fun _ => .pure ⟨hm.bond, hm.leaving, ?_⟩) h
      rintro r ⟨⟩
  | executeCandidateBondLess =>
      have hroutine : Routine cfg s s' := State.signed_routine rfl h
      exact hheld.executeCandidateBondLess hnow (hroutine.stashes hl) h
  | setController new =>
      have hsame : Returns (fun t : State AccountId R => t.ledger = s.ledger) (s.setController who new) :=
        .bind fun _ => .bind fun _ => .bind fun _ => .bind fun _ => .bind fun _ => .bind fun _ =>
          .bind fun _ => .pure rfl
      exact hidle (hsame s' h)
  | cancelControllerSet =>
      have hsame : Returns (fun t : State AccountId R => t.ledger = s.ledger)
          (s.cancelControllerSet who) := .bind fun _ => .bind fun _ => .pure rfl
      exact hidle (hsame s' h)
  | setValidatorCommission new => exact hidle (State.setValidatorCommission_idle new s' h).ledger
  | cancelValidatorCommissionSet => exact hidle (State.cancelValidatorCommissionSet_idle s' h).ledger
  | candidateBondMore more =>
      exact .onLedger hl hheld (fun _ => Ledger.candidateBondMore_preserves)
        (Ledger.candidateBondMore_stands more) h
  | setCandidateRewardDst dst =>
      exact .onLedger hl hheld (fun _ => Ledger.setCandidateRewardDst_preserves)
        (Ledger.setCandidateRewardDst_stands dst) h
  | nominate candidate amount i j =>
      exact .onLedger hl hheld (fun _ => Ledger.nominate_preserves)
        (Ledger.nominate_stands amount i j) h
  | executeLeaveNominators count =>
      exact .onLedger hl hheld (fun _ => Ledger.executeLeaveNominators_preserves)
        (Ledger.executeLeaveNominators_stands s.now count) h
  | nominatorBondMore candidate more =>
      exact .onLedger hl hheld (fun _ => Ledger.nominatorBondMore_preserves)
        (Ledger.nominatorBondMore_stands more) h
  | executeNominationRequest candidate =>
      exact .onLedger hl hheld (fun _ => Ledger.executeNominationRequest_preserves)
        (Ledger.executeNominationRequest_stands s.now) h
  | setNominatorRewardDst dst =>
      exact .onLedger hl hheld (fun _ => Ledger.setNominatorRewardDst_preserves)
        Ledger.updateNominator_stands h
  | scheduleLeaveNominators =>
      exact .onLedger hl hheld (fun _ => Ledger.scheduleLeaveNominators_preserves)
        Ledger.updateNominator_stands h
  | cancelLeaveNominators =>
      exact .onLedger hl hheld (fun _ => Ledger.cancelLeaveNominators_preserves)
        Ledger.updateNominator_stands h
  | scheduleRevokeNomination validator =>
      exact .onLedger hl hheld (fun _ => Ledger.scheduleRevokeNomination_preserves)
        Ledger.updateNominator_stands h
  | scheduleNominatorBondLess candidate less =>
      exact .onLedger hl hheld (fun _ => Ledger.scheduleNominatorBondLess_preserves)
        Ledger.updateNominator_stands h
  | cancelNominationRequest candidate =>
      exact .onLedger hl hheld (fun _ => Ledger.cancelNominationRequest_preserves)
        Ledger.updateNominator_stands h
  | _ => cases h

/-- **Every call** leaves a bond held whose notice is longer than the delays allow. -/
lemma State.dispatch_heldAs {origin : Origin AccountId} {call : Call AccountId}
    (hl : LedgerInv cfg s.ledger) (hheld : HeldAs s.ledger stash c bond due) (hnow : s.now < due)
    (hexit : due ≤ s.now + cfg.leaveCandidatesDelay)
    (hless : due ≤ s.now + cfg.candidateBondLessDelay)
    (h : s.dispatch cfg rm origin call = .ok s') : HeldAs s'.ledger stash c bond due := by
  have hidle : Idle s s' → HeldAs s'.ledger stash c bond due := fun hi => hi.ledger ▸ hheld
  cases call with
  | setStakingExpectations x => exact hidle (State.setStakingExpectations_idle x _ h)
  | setInflation x => exact hidle (State.setInflation_idle x _ h)
  | setMaxFullSelected x => exact hidle (State.setMaxFullSelected_idle x _ h)
  | setMaxBasicSelected x => exact hidle (State.setMaxBasicSelected_idle x _ h)
  | setDefaultValidatorCommission x tier =>
      exact hidle (State.setDefaultValidatorCommission_idle x tier _ h)
  | setMaxValidatorCommission x tier => exact hidle (State.setMaxValidatorCommission_idle x tier _ h)
  | setBlocksPerRound x => exact hidle (State.setBlocksPerRound_idle x _ h)
  | setStorageCacheLifetime x => exact hidle (State.setStorageCacheLifetime_idle x _ h)
  | _ =>
      obtain ⟨who, -, hsigned⟩ := bind_eq_ok.mp h
      exact State.signed_heldAs hl hheld hnow hexit hless hsigned

/-- **`on_offence`**, of others. -/
lemma State.onOffence_heldAs {offenders : List (AccountId × Perbill)} {slashSession : ℕ}
    (hheld : HeldAs s.ledger stash c bond due) (hothers : ∀ o ∈ offenders, o.1 ≠ c)
    (h : s.onOffence cfg rm offenders slashSession = some s') : HeldAs s'.ledger stash c bond due := by
  induction offenders generalizing s with
  | nil =>
      obtain rfl : s = s' := by simpa [State.onOffence] using h
      exact hheld
  | cons o offenders ih =>
      rw [State.onOffence, List.foldlM_cons] at h
      obtain ⟨s₁, h₁, h⟩ := Option.bind_eq_some_iff.mp h
      refine ih ?_ (fun o' ho' => hothers o' (List.mem_cons_of_mem _ ho')) h
      have hne : c ≠ o.1 := (hothers o List.mem_cons_self).symm
      obtain ⟨m, hm, hc⟩ := hheld.record
      cases State.offend_cases h₁ with
      | ignored _ => exact hheld
      | recorded _ _ _ => exact ⟨hheld.stash, m, hm, hc⟩
      | punished _ _ _ =>
          exact ⟨hheld.stash, m, (StorageMap.get_insert_of_ne _ hne _).trans hm, hc⟩

/-- **The controller changes of a round**: the candidate is held, perhaps under another account. -/
lemma State.applyControllerSets_heldAs {now : ℕ} :
    ∀ {cs : List (DelayedControllerSet AccountId)} {s : State AccountId R} {c : AccountId},
      LedgerInv cfg s.ledger → Pending s.ledger cs → HeldAs s.ledger stash c bond due →
      ∃ c', HeldAs (cs.foldl (State.applyControllerSet rm now) s).ledger stash c' bond due := by
  intro cs
  induction cs with
  | nil => exact fun _ _ hheld => ⟨_, hheld⟩
  | cons d cs ih =>
      intro s c hl hp hheld
      obtain ⟨m, top, bottom, hm, hren, hbal⟩ :=
        @State.applyControllerSet_renamed _ _ _ cfg rm s now d cs hl hp
      obtain ⟨mc, hmc, hc⟩ := hheld.record
      have hold := hp.stash d List.mem_cons_self
      have hone : ∃ c', HeldAs (s.applyControllerSet rm now d).ledger stash c' bond due := by
        by_cases hd : stash = d.stash
        · subst hd
          obtain rfl := Option.some.inj (hheld.stash.symm.trans hold)
          obtain rfl := Option.some.inj (hm.symm.trans hmc)
          refine ⟨d.new, ?_, m, ?_, hc⟩
          · rw [hren.stash_eq, StorageMap.get_insert_self]
          · rw [hren.info_eq, StorageMap.get_insert_self]
        · have hcold : c ≠ d.old := by
            rintro rfl
            obtain ⟨x, hx, hxs⟩ := (hl.books.stash_iff _ _).mp hheld.stash
            obtain ⟨y, hy, hys⟩ := (hl.books.stash_iff _ _).mp hold
            obtain rfl := Option.some.inj (hx.symm.trans hy)
            exact hd (hxs.symm.trans hys)
          have hcnew : c ≠ d.new := by
            rintro rfl
            rw [hp.unused d List.mem_cons_self] at hmc
            cases hmc
          refine ⟨c, ?_, mc, ?_, hc⟩
          · rw [hren.stash_eq, StorageMap.get_insert_of_ne _ hd, hheld.stash]
          · rw [hren.info_eq, StorageMap.get_insert_of_ne _ hcnew,
              StorageMap.get_remove_of_ne _ hcold, hmc]
      obtain ⟨c', hheld'⟩ := hone
      exact ih (hbal.inv hl) (hp.tail hren) hheld'

/-- `new_session` leaves the bond held, under the new controller if it changes. -/
lemma State.newSession_heldAs {now newIndex : ℕ} {validators : List AccountId}
    {hasKeys : AccountId → Bool} {out : Option (List AccountId)} (hs : StateInv cfg s)
    (hheld : HeldAs s.ledger stash c bond due)
    (h : s.newSession cfg rm now newIndex validators hasKeys = some (out, s')) :
    ∃ c', HeldAs s'.ledger stash c' bond due := by
  simp only [State.newSession, State.tryNewRound, Option.bind_eq_bind, Option.bind_eq_some_iff,
    Option.pure_def, Option.some.injEq, Prod.mk.injEq] at h
  obtain ⟨s₁, h₁, -, rfl⟩ := h
  let s₀ : State AccountId R := s.enterSession now newIndex validators
  have hquiet₀ : Quiet cfg s.ledger s₀.ledger := s.ledger.computeProductivity_quiet _ _
  have henter : HeldAs s₀.ledger stash c bond due := by
    refine hheld.stands hquiet₀.steady.stashes ?_
    refine StandsBy.foldl_modifyCandidate (fun _ m => ?_) validators s.ledger
    split_ifs
    · exact ⟨rfl, rfl, rfl⟩
    · exact ⟨rfl, rfl, rfl⟩
  split_ifs at h₁
  · simp only [State.newRound, Option.map_eq_some_iff, Prod.exists] at h₁
    obtain ⟨count, s₂, h₂, rfl⟩ := h₁
    let s₃ : State AccountId R := (s₂.startRound rm (s₀.round.updateRound s₀.session now)
      count).handleDelayedCommissionSets (s₀.now + 1)
    obtain ⟨hinv, hpending, -, -⟩ := State.selectForRound_midway
      ((s.enterSession_keeps now newIndex validators).inv hs)
      (State.computeTopCandidates_qualified cfg _ hasKeys) h₂ rfl
    have hquiet : Quiet cfg s₀.ledger s₃.ledger := State.selectForRound_quiet h₂ rfl
    have hheld₃ : HeldAs s₃.ledger stash c bond due :=
      henter.stands hquiet.steady.stashes (State.selectForRound_stands h₂ rfl)
    let s₄ : State AccountId R :=
      { s₃ with delayedControllerSets := s₃.delayedControllerSets.remove (s₀.now + 1 - 1) }
    exact State.applyControllerSets_heldAs (s := s₄) hinv hpending hheld₃
  · obtain rfl := Option.some.inj h₁
    exact ⟨c, henter⟩

/-- **One step**, before the round has come. -/
lemma State.step_heldAs {i : Step AccountId R} (hs : StateInv cfg s)
    (hheld : HeldAs s.ledger stash c bond due) (hnow : s.now < due)
    (hexit : due ≤ s.now + cfg.leaveCandidatesDelay)
    (hless : due ≤ s.now + cfg.candidateBondLessDelay) (hi : i.Spares stash s)
    (h : s.step cfg rm i = some s') : ∃ c', HeldAs s'.ledger stash c' bond due := by
  cases i with
  | call origin call =>
      obtain rfl := Option.some.inj h
      exact ⟨c, commit_induction (P := fun t : State AccountId R => HeldAs t.ledger stash c bond due)
        hheld fun t ht => State.dispatch_heldAs hs.ledger hheld hnow hexit hless ht⟩
  | onInitialize n drained =>
      obtain ⟨⟨paid, s₁⟩, h₁, rfl⟩ := Option.map_eq_some_iff.mp h
      rcases State.onInitialize_cases h₁ with ⟨snapshot, -, hpay⟩
      cases hpay with
      | idle => exact ⟨c, hheld.stash, hheld.record⟩
      | closed => exact ⟨c, hheld.stash, hheld.record⟩
      | lost => exact ⟨c, hheld.stash, hheld.record⟩
      | paid _ _ _ hl =>
          exact ⟨c, hheld.stands ((Ledger.payValidator_preserves hl).steady hs.ledger).stashes
            (Ledger.payValidator_stands hl)⟩
  | noteAuthor author =>
      obtain rfl := Option.some.inj h
      have hquiet : Quiet cfg s.ledger (s.noteAuthor author).ledger := State.noteAuthor_quiet author
      refine ⟨c, hheld.stands hquiet.steady.stashes (StandsBy.modifyCandidate (fun m => ?_) _ _)⟩
      exact ⟨rfl, rfl, rfl⟩
  | newSession now newIndex validators hasKeys =>
      obtain ⟨⟨o, s₁⟩, h₁, rfl⟩ := Option.map_eq_some_iff.mp h
      exact State.newSession_heldAs hs hheld h₁
  | onOffence offenders slashSession =>
      refine ⟨c, State.onOffence_heldAs hheld (fun o ho hoc => hi o ho ?_) h⟩
      rw [hheld.stash, hoc]
  | endSession => exact Option.some.inj h ▸ ⟨c, hheld⟩
  | balances free others => exact Option.some.inj h ▸ ⟨c, hheld.stash, hheld.record⟩
  | relay state => exact Option.some.inj h ▸ ⟨c, hheld⟩
  | offenceSettings isOffenceActive isSlashActive expiration full basic =>
      exact Option.some.inj h ▸ ⟨c, hheld⟩

end Held

/-! ## Runs -/

section Runs

variable {cfg : Config AccountId} {rm : RelayManager AccountId R} {s s' : State AccountId R}

/-- The round never goes back. -/
lemma State.step_now_le {i : Step AccountId R} (hs : StateInv cfg s)
    (h : s.step cfg rm i = some s') : s.now ≤ s'.now := by
  have hdrops : i.Drops cfg rm (fun _ _ => True) (fun _ _ => True) s :=
    Step.drops_of (fun _ _ => trivial) fun offenders _ _ =>
      .of_forall (fun _ _ _ => trivial) offenders s
  refine (State.step_turns hs hdrops h).keeps (P := fun t => s.now ≤ t.now)
    (fun t t' hle hturn => hle.trans ?_) le_rfl
  cases hturn with
  | chosen hpool hchosen => exact hchosen.now ▸ Nat.le_succ _
  | stakes _ _ hnow => exact hnow.ge
  | joined _ _ _ _ hnow => exact hnow.ge
  | moved _ _ _ _ _ hnow => exact hnow.ge
  | offline _ _ _ _ _ hnow => exact hnow.ge
  | kicked _ _ _ _ _ hnow => exact hnow.ge
  | left _ _ _ _ _ hnow => exact hnow.ge
  | renamed _ _ _ _ _ _ hnow => exact hnow.ge

/-- **Self-bonds take notice.**  A candidate whose requests are due in round `due` or later, if at all,
keeps its self-bond until then, whatever happens, as long as it commits no offence and both delays last
at least that long.  It is still the candidate of its stash, if perhaps under another account, and the
self-bond is still reserved. -/
theorem bond_held {stash c : AccountId} {m : CandidateMetadata AccountId} {due : ℕ}
    (h : ReachableIf cfg rm anyStep s) (hstash : s.ledger.bondedStash.get stash = some c)
    (hm : s.ledger.candidateInfo.get c = some m)
    (hleaving : ∀ w, m.status = .leaving w → due ≤ w)
    (hrequest : ∀ r, m.request = some r → due ≤ r.whenExecutable)
    (hexit : due ≤ s.now + cfg.leaveCandidatesDelay)
    (hless : due ≤ s.now + cfg.candidateBondLessDelay)
    (hrun : Reachable (fun t => t = s) (State.step cfg rm) (fun t i => i.Spares stash t) s')
    (hnow : s'.now < due) :
    ∃ c' m', s'.ledger.bondedStash.get stash = some c' ∧
      s'.ledger.candidateInfo.get c' = some m' ∧ m'.stash = stash ∧ m.bond ≤ m'.bond ∧
      m.bond ≤ s'.ledger.currency.reserved stash := by
  have hall := Reachable.invariant (P := fun t : State AccountId R => ReachableIf cfg rm anyStep t ∧
      s.now ≤ t.now ∧ (t.now < due → ∃ c', HeldAs t.ledger stash c' m.bond due)) ?_ ?_ hrun
  · obtain ⟨hreach, -, hheld⟩ := hall
    obtain ⟨c', hheld⟩ := hheld hnow
    obtain ⟨m', hm', hbond⟩ := hheld.record
    obtain ⟨x, hx, hxs⟩ := (hreach.inv.ledger.books.stash_iff _ _).mp hheld.stash
    obtain rfl := Option.some.inj (hm'.symm.trans hx)
    refine ⟨c', m', hheld.stash, hm', hxs, hbond.bond, hbond.bond.trans ?_⟩
    rw [← hxs]
    exact hreach.backed.bond_le hm'
  · rintro t rfl
    exact ⟨h, le_rfl, fun _ => ⟨c, hstash, m, hm, le_rfl, hleaving, hrequest⟩⟩
  · intro t i t' ⟨hreach, hle, hheld⟩ hi hstep
    have hmono := State.step_now_le hreach.inv hstep
    refine ⟨.step hreach trivial hstep, hle.trans hmono, fun hlt => ?_⟩
    obtain ⟨c', hheld⟩ := hheld (by omega)
    exact State.step_heldAs hreach.inv hheld (by omega) (by omega) (by omega) hi hstep

/-- The first candidate asks to leave, and to be let go in the same round. -/
def devnetExit : List (Step ℕ Unit) :=
  [.call (.signed 2) (.scheduleLeaveCandidates 2), .call (.signed 1) (.executeLeaveCandidates 2)]

/-- Stash 1 has asked to leave and to be let go, and its self-bond of 1000 is reserved as before. -/
theorem bond_held_devnet : ∃ s s' : State ℕ Unit, ReachableIf devnet devnetRelays anyStep s ∧
    Reachable (fun t => t = s) (State.step devnet devnetRelays) (fun t i => i.Spares 1 t) s' ∧
    (s'.ledger.candidateInfo.get 2).any CandidateMetadata.isLeaving = true ∧
    1000 ≤ s'.ledger.currency.reserved 1 := by
  have hrun : (devnetRun []).any (fun s => decide (s.ledger.bondedStash.get 1 = some 2 ∧ s.now = 1) &&
      (s.ledger.candidateInfo.get 2).any (fun m => m.isActive && m.request.isNone && m.bond = 1000) &&
      (runSteps (State.step devnet devnetRelays) s devnetExit).any fun s' =>
        decide (s'.now = 1) && (s'.ledger.candidateInfo.get 2).any CandidateMetadata.isLeaving) =
        true := by decide
  obtain ⟨s, hs, hP⟩ := devnetRun_exists hrun
  simp only [Bool.and_eq_true, decide_eq_true_eq, Option.any_eq_true] at hP
  obtain ⟨⟨⟨hstash, hnow⟩, m, hm, ⟨hactive, hnone⟩, hbond⟩, s', hsteps, hnow', hleaving⟩ := hP
  have hreach : Reachable (fun t => t = s) (State.step devnet devnetRelays)
      (fun t i => i.Spares 1 t) s' := by
    refine Reachable.runSteps_of (.init rfl) (fun i hi t => ?_) hsteps
    simp only [devnetExit, List.mem_cons, List.not_mem_nil, or_false] at hi
    rcases hi with rfl | rfl <;> trivial
  have hstatus : m.status = .active := of_decide_eq_true hactive
  have hrequest : m.request = none := Option.isNone_iff_eq_none.mp hnone
  have hexit : 2 ≤ s.now + devnet.leaveCandidatesDelay := by
    rw [hnow]
    decide
  have hless : 2 ≤ s.now + devnet.candidateBondLessDelay := by
    rw [hnow]
    decide
  obtain ⟨c', m', -, -, -, -, hreserved⟩ := bond_held hs hstash hm
    (fun w hw => by rw [hstatus] at hw; cases hw) (fun r hr => by rw [hrequest] at hr; cases hr)
    hexit hless hreach (by omega)
  refine ⟨s, s', hs, hreach, (Option.any_eq_true _ _).mpr hleaving, ?_⟩
  omega

end Runs

end BifrostNode.Staking
