import BifrostNode.Staking.Minting
import BifrostNode.Staking.Notice

/-!
# What an account owns

An account owns its free and its reserved balance.  `bfc-staking` reserves and unreserves, which moves
tokens within an account, mints rewards and slashes self-bonds.

**SameWealth**: the calls, the sessions and the selections move tokens within accounts only, whatever
they return.
**Enriched**: a payout only gives, and what the accounts gain together is counted in `AwardedTokens`.

So along every run nobody loses but by a slash of its own self-bond, and the accounts together never gain
more than `AwardedTokens` says (`wealth_conserved`).
-/

namespace BifrostNode.Staking

open Transition

variable {AccountId R : Type}

/-! ## Balances -/

/-- The free and the reserved balance. -/
def Currency.wealth (cur : Currency AccountId) (a : AccountId) : ℕ := cur.free a + cur.reserved a

namespace Currency

variable [LinearOrder AccountId] {cur cur' : Currency AccountId} {who : AccountId} {value : ℕ}

lemma reserve_wealth (h : cur.reserve who value = .ok cur') (a : AccountId) :
    cur'.wealth a = cur.wealth a := by
  simp only [reserve, bind_eq_ok, ensure_eq_ok, pure_eq_ok, exists_const] at h
  obtain ⟨hle, rfl⟩ := h
  by_cases ha : a = who
  · subst ha
    simp only [wealth, Function.update_self]
    omega
  · simp only [wealth, Function.update_of_ne ha]

@[simp] lemma unreserve_wealth (cur : Currency AccountId) (who : AccountId) (value : ℕ)
    (a : AccountId) : (cur.unreserve who value).wealth a = cur.wealth a := by
  by_cases ha : a = who
  · subst ha
    simp only [wealth, unreserve, Function.update_self]
    omega
  · simp only [wealth, unreserve, Function.update_of_ne ha]

lemma slashReserved_wealth_le (cur : Currency AccountId) (who : AccountId) (value : ℕ)
    (a : AccountId) : (cur.slashReserved who value).wealth a ≤ cur.wealth a := by
  by_cases ha : a = who
  · subst ha
    simp only [wealth, slashReserved, Function.update_self]
    omega
  · simp only [wealth, slashReserved, Function.update_of_ne ha, le_refl]

lemma slashReserved_wealth_of_ne (cur : Currency AccountId) {a : AccountId} (h : a ≠ who) (value : ℕ) :
    (cur.slashReserved who value).wealth a = cur.wealth a := by
  simp only [wealth, slashReserved, Function.update_of_ne h]

lemma deposit_wealth (h : cur.depositIntoExisting who value = some cur') (a : AccountId) :
    cur'.wealth a = cur.wealth a + if a = who then value else 0 := by
  rw [depositIntoExisting] at h
  split_ifs at h
  obtain rfl := Option.some.inj h
  by_cases ha : a = who
  · subst ha
    simp only [wealth, Function.update_self, if_true]
    omega
  · simp only [wealth, Function.update_of_ne ha, if_neg ha, Nat.add_zero]

end Currency

/-! ## Moves within accounts -/

/-- Every account owns what it owned, and nothing is awarded. -/
structure SameWealth (l l' : Ledger AccountId) : Prop where
  wealth : ∀ a, l'.currency.wealth a = l.currency.wealth a
  awarded : l'.awardedTokens = l.awardedTokens

namespace SameWealth

variable {l l₁ l₂ : Ledger AccountId}

lemma of_eq (hcur : l₁.currency = l.currency) (hawarded : l₁.awardedTokens = l.awardedTokens) :
    SameWealth l l₁ := ⟨fun a => by rw [hcur], hawarded⟩

lemma refl (l : Ledger AccountId) : SameWealth l l := .of_eq rfl rfl

lemma trans (h₁ : SameWealth l l₁) (h₂ : SameWealth l₁ l₂) : SameWealth l l₂ :=
  ⟨fun a => (h₂.wealth a).trans (h₁.wealth a), h₂.awarded.trans h₁.awarded⟩

end SameWealth

section Moves

variable [LinearOrder AccountId] {cfg : Config AccountId} {l l' : Ledger AccountId}
  {m : CandidateMetadata AccountId} {c n : AccountId}

lemma Ledger.updateActive_wealth (l : Ledger AccountId) (c : AccountId) (v : ℕ) :
    SameWealth l (l.updateActive c v) :=
  .of_eq (l.updateActive_currency c v) (l.updateActive_awarded c v)

lemma SameWealth.modifyCandidate (f : CandidateMetadata AccountId → CandidateMetadata AccountId)
    (l : Ledger AccountId) (c : AccountId) : SameWealth l (l.modifyCandidate c f) := by
  rw [Ledger.modifyCandidate]
  split
  · exact .refl l
  · exact .of_eq rfl rfl

lemma SameWealth.foldl_modifyCandidate {ι : Type} (who : ι → AccountId)
    (f : ι → CandidateMetadata AccountId → CandidateMetadata AccountId) :
    ∀ (is : List ι) (l : Ledger AccountId),
      SameWealth l (is.foldl (fun l i => l.modifyCandidate (who i) (f i)) l) := by
  intro is
  induction is with
  | nil => exact .refl
  | cons i is ih =>
      intro l
      exact (SameWealth.modifyCandidate (f i) l (who i)).trans (ih _)

/-! ### Boards -/

namespace CandidateMetadata

lemma resetTopData_wealth (l : Ledger AccountId) (m : CandidateMetadata AccountId) (c : AccountId)
    (top : Nominations AccountId) : SameWealth l (m.resetTopData cfg l c top).2 := by
  rw [resetTopData]
  split_ifs
  · exact l.updateActive_wealth c _
  · exact .refl l

lemma kickLowestBottom_wealth (bottom : Nominations AccountId) :
    Returns (fun r => SameWealth l r.2) (kickLowestBottom l c bottom) :=
  .bind fun _ => .bind fun _ => .pure ⟨fun _ => Currency.unreserve_wealth _ _ _ _, rfl⟩

lemma addBottomNomination_wealth (b : Bool) (x : Bond AccountId) :
    Returns (fun r => SameWealth l r.2) (addBottomNomination cfg l m b c x) := by
  refine .bind fun bottom => ?_
  extract_lets rest
  have hrest : ∀ r, SameWealth l r.2.1 → Returns (fun r => SameWealth l r.2) (rest r) := by
    rintro ⟨bottom', l₁, b'⟩ h
    exact .pure (h.trans (.of_eq rfl rfl))
  clear_value rest
  refine .ite (.bind_of (kickLowestBottom_wealth bottom) ?_) (.jump (hrest _ (.refl l)))
  rintro ⟨bottom', l₁⟩ h
  exact .jump (hrest _ h)

lemma addTopNomination_wealth (x : Bond AccountId) :
    Returns (fun r => SameWealth l r.2.2) (addTopNomination cfg l m c x) := by
  refine .bind fun top => ?_
  extract_lets rest
  have hrest : ∀ r, SameWealth l r.2.2.2 → Returns (fun r => SameWealth l r.2.2) (rest r) := by
    rintro ⟨top', less, m₁, l₁⟩ h
    exact .pure (h.trans ((resetTopData_wealth l₁ m₁ c _).trans (.of_eq rfl rfl)))
  clear_value rest
  refine .ite (.bind fun y => .bind_of (addBottomNomination_wealth true y) ?_)
    (.jump (hrest _ (.refl l)))
  rintro ⟨m₁, l₁⟩ h
  exact .jump (hrest _ h)

lemma addNomination_wealth (x : Bond AccountId) :
    Returns (fun r => SameWealth l r.2.2) (addNomination cfg l m c x) := by
  have htop : ∀ f : Option ℕ → CandidateMetadata AccountId → NominatorAdded × Option ℕ,
      Returns (fun r => SameWealth l r.2.2) (addTopNomination cfg l m c x >>= fun r =>
        (pure (f r.1 r.2.1, r.2.1, r.2.2) : Except Error _)) := fun f =>
    .bind_of (addTopNomination_wealth x) fun _ h => .pure h
  have hbottom : ∀ less : Option ℕ,
      Returns (fun r => SameWealth l r.2.2) (addBottomNomination cfg l m false c x >>= fun r =>
        (pure ((NominatorAdded.addedToBottom, less), r.1, r.2) : Except Error _)) := fun less =>
    .bind_of (addBottomNomination_wealth false x) fun _ h => .pure h
  refine .ite (.ite (htop fun less m => (.addedToTop m.votingPower, less)) (.ite ?_ ?_))
    (htop fun _ m => (.addedToTop m.votingPower, none))
  · exact .bind fun _ => .jump (hbottom _)
  · exact .jump (hbottom _)

lemma rmTopNomination_wealth :
    Returns (fun r => SameWealth l r.2.2) (rmTopNomination cfg l m c n) := by
  refine .bind fun top => .bind fun x => ?_
  extract_lets top₁ rest
  have hrest : ∀ r, SameWealth l r.2.2 → Returns (fun r => SameWealth l r.2.2) (rest r) := by
    rintro ⟨top', m₁, l₁⟩ h
    exact .pure (h.trans ((resetTopData_wealth l₁ m₁ c _).trans (.of_eq rfl rfl)))
  clear_value rest
  exact .ite (.bind fun bottom => .bind fun y => .jump (hrest _ (.of_eq rfl rfl)))
    (.jump (hrest _ (.refl l)))

lemma rmBottomNomination_wealth :
    Returns (fun r => SameWealth l r.2.2) (rmBottomNomination cfg l m c n) :=
  .bind fun _ => .bind fun _ => .pure (.of_eq rfl rfl)

lemma rmNominationIfExists_wealth (amount : ℕ) :
    Returns (fun r => SameWealth l r.2.2) (rmNominationIfExists cfg l m c n amount) :=
  .ite rmTopNomination_wealth
    (.ite (topElseBottom_returns rmTopNomination_wealth rmBottomNomination_wealth)
      rmBottomNomination_wealth)

lemma increaseTopNomination_wealth (more : ℕ) :
    Returns (fun r => SameWealth l r.2.2) (increaseTopNomination cfg l m c n more) :=
  .bind fun _ => .bind fun _ => .pure ((resetTopData_wealth l m c _).trans (.of_eq rfl rfl))

lemma increaseBottomNomination_wealth (bond more : ℕ) :
    Returns (fun r => SameWealth l r.2.2) (increaseBottomNomination cfg l m c n bond more) := by
  refine .bind fun bottom => ?_
  extract_lets rest
  have hrest : ∀ r, SameWealth l r.2.2.2 → Returns (fun r => SameWealth l r.2.2) (rest r) := by
    rintro ⟨b, bottom', m₁, l₁⟩ h
    exact .pure (h.trans (.of_eq rfl rfl))
  clear_value rest
  refine .ite (.bind fun x => ?_) (.bind fun _ => .jump (hrest _ (.refl l)))
  extract_lets y rest₁
  have hrest₁ : ∀ r, Returns (fun r => SameWealth l r.2.2) (rest₁ r) := by
    rintro ⟨top', bottom'⟩
    exact .jump (hrest _ ((resetTopData_wealth l m c _).trans (.of_eq rfl rfl)))
  clear_value rest₁
  exact .bind fun top => .ite (.bind fun _ => .jump (hrest₁ _)) (.jump (hrest₁ _))

lemma increaseNomination_wealth (bond more : ℕ) :
    Returns (fun r => SameWealth l r.2.2) (increaseNomination cfg l m c n bond more) :=
  .ite (increaseTopNomination_wealth more)
    (.ite (topElseBottom_returns (increaseTopNomination_wealth more)
      (increaseBottomNomination_wealth bond more)) (increaseBottomNomination_wealth bond more))

lemma decreaseTopNomination_wealth (bond less : ℕ) :
    Returns (fun r => SameWealth l r.2.2) (decreaseTopNomination cfg l m c n bond less) := by
  rw [decreaseTopNomination]
  extract_lets rest
  have hrest : ∀ r, SameWealth l r.2.2.2 → Returns (fun r => SameWealth l r.2.2) (rest r) := by
    rintro ⟨b, top', m₁, l₁⟩ h
    exact .pure (h.trans ((resetTopData_wealth l₁ m₁ c _).trans (.of_eq rfl rfl)))
  clear_value rest
  refine .bind fun top => .ite ?_ (.bind fun _ => .jump (hrest _ (.refl l)))
  exact .bind fun _ => .bind fun _ => .bind fun _ => .jump (hrest _ (.of_eq rfl rfl))

lemma decreaseBottomNomination_wealth (less : ℕ) :
    Returns (fun r => SameWealth l r.2.2) (decreaseBottomNomination cfg l m c n less) :=
  .bind fun _ => .bind fun _ => .pure (.of_eq rfl rfl)

lemma decreaseNomination_wealth (bond less : ℕ) :
    Returns (fun r => SameWealth l r.2.2) (decreaseNomination cfg l m c n bond less) :=
  .ite (decreaseTopNomination_wealth bond less)
    (.ite (topElseBottom_returns (decreaseTopNomination_wealth bond less)
      (decreaseBottomNomination_wealth less)) (decreaseBottomNomination_wealth less))

end CandidateMetadata

/-! ### Calls on the ledger -/

namespace Ledger

lemma nominate_wealth (amount i j : ℕ) : Returns (SameWealth l) (l.nominate cfg n c amount i j) := by
  intro l' h
  simp only [nominate, bind_eq_ok, okOr_eq_ok, ensure_eq_ok, pure_eq_ok, exists_const,
    Prod.exists] at h
  obtain ⟨-, st, -, m, hm, -, added, less, m', l₁, hadd, currency, hcur, rfl⟩ := h
  have hboard := CandidateMetadata.addNomination_wealth _ _ hadd
  exact hboard.trans ⟨fun a => Currency.reserve_wealth hcur a, rfl⟩

lemma nominatorLeavesCandidate_wealth (amount : ℕ) :
    Returns (SameWealth l) (l.nominatorLeavesCandidate cfg c n amount) := by
  intro l' h
  simp only [nominatorLeavesCandidate, bind_eq_ok, okOr_eq_ok, pure_eq_ok, Prod.exists] at h
  obtain ⟨m, hm, b, m', l₁, hrm, rfl⟩ := h
  have hboard := CandidateMetadata.rmNominationIfExists_wealth _ _ hrm
  exact hboard.trans ⟨fun a => Currency.unreserve_wealth _ _ _ a, rfl⟩

/-- `increase_nomination`, whether it succeeds or not. -/
lemma increaseNomination_wealth (st : Nominator AccountId) (c : AccountId) (amount : ℕ) :
    SameWealth l (st.increaseNomination cfg l c amount).2 := by
  rw [Nominator.increaseNomination]
  cases st.nominations.get c with
  | none => exact .refl l
  | some before =>
      cases l.candidateInfo.get c with
      | none => exact .refl l
      | some m =>
          simp only [Nominator.setNomination_id]
          cases hcur : l.currency.reserve st.id amount with
          | error e => exact .refl l
          | ok currency =>
              have hreserve : SameWealth l { l with currency := currency } :=
                ⟨fun a => Currency.reserve_wealth hcur a, rfl⟩
              cases hinc : m.increaseNomination cfg { l with currency := currency } c st.id before
                  amount with
              | error e =>
                  simp only [hinc]
                  exact hreserve
              | ok r =>
                  obtain ⟨b, m', l₁⟩ := r
                  have hboard := CandidateMetadata.increaseNomination_wealth _ _ _ hinc
                  simp only [hinc]
                  exact hreserve.trans (hboard.trans ((l₁.updateActive_wealth c _).trans (.of_eq rfl rfl)))

lemma nominatorBondMore_wealth (more : ℕ) :
    Returns (SameWealth l) (l.nominatorBondMore cfg n c more) := by
  intro l' h
  simp only [nominatorBondMore, bind_eq_ok, okOr_eq_ok, pure_eq_ok] at h
  obtain ⟨st, -, -, -, rfl⟩ := h
  exact increaseNomination_wealth st c more

lemma executeNominationRequest_wealth (now : ℕ) :
    Returns (SameWealth l) (l.executeNominationRequest cfg now n c) := by
  refine .bind fun st => .bind fun request => .bind fun _ => ?_
  cases request.action with
  | revoke =>
      exact .bind fun _ => .bind_of (Ledger.nominatorLeavesCandidate_wealth _) fun l₁ h =>
        .pure (h.trans (.of_eq rfl rfl))
  | decrease =>
      intro l' h
      simp only [Nominator.executeDecrease, bind_eq_ok, okOr_eq_ok, ensure_eq_ok, pure_eq_ok,
        exists_const, Prod.exists] at h
      obtain ⟨before, -, -, -, -, m, hm, b, m', l₁, hdec, rfl⟩ := h
      have hboard := CandidateMetadata.decreaseNomination_wealth _ _ _ hdec
      refine SameWealth.trans ?_ (hboard.trans (.of_eq rfl rfl))
      exact ⟨fun a => Currency.unreserve_wealth _ _ _ a, rfl⟩

/-- The loop over the nominations of a nominator that leaves. -/
lemma leaveAll_wealth :
    ∀ (bonds : List (AccountId × ℕ)) (l : Ledger AccountId),
      SameWealth l (leaveAll cfg n l bonds) := by
  intro bonds
  induction bonds with
  | nil => exact .refl
  | cons bond bonds ih =>
      intro l
      rw [leaveAll, List.foldl_cons, ← leaveAll]
      cases hleave : l.nominatorLeavesCandidate cfg bond.1 n bond.2 with
      | ok l₁ => exact (nominatorLeavesCandidate_wealth _ _ hleave).trans (ih _)
      | error e =>
          have hlog : SameWealth l
              { l with warnings := .nominatorLeaving n bond.1 e :: l.warnings } := .of_eq rfl rfl
          exact hlog.trans (ih _)

lemma executeLeaveNominators_wealth (now count : ℕ) :
    Returns (SameWealth l) (l.executeLeaveNominators cfg now n count) :=
  .bind fun _ => .bind fun _ => .pure ((leaveAll_wealth _ l).trans (.of_eq rfl rfl))

lemma updateNominator_wealth {f : Nominator AccountId → Except Error (Nominator AccountId)} :
    Returns (SameWealth l) (l.updateNominator n f) :=
  .bind fun _ => .bind fun _ => .pure (.of_eq rfl rfl)

lemma updateCandidate_wealth
    {f : CandidateMetadata AccountId → Except Error (CandidateMetadata AccountId)} :
    Returns (SameWealth l) (l.updateCandidate c f) :=
  .bind fun _ => .bind fun _ => .pure (.of_eq rfl rfl)

lemma bondMore_wealth (stash : AccountId) (more : ℕ) :
    Returns (fun r => SameWealth l r.2) (m.bondMore l stash more) := by
  intro r h
  simp only [CandidateMetadata.bondMore, bind_eq_ok, pure_eq_ok] at h
  obtain ⟨currency, hcur, rfl⟩ := h
  exact ⟨fun a => Currency.reserve_wealth hcur a, rfl⟩

lemma candidateBondMore_wealth (more : ℕ) :
    Returns (SameWealth l) (l.candidateBondMore c more) := by
  refine .bind fun x => .bind fun _ => .bind_of (bondMore_wealth c more) fun r h => ?_
  have hput : SameWealth r.2 { r.2 with candidateInfo := r.2.candidateInfo.insert x.1 r.1 } :=
    .of_eq rfl rfl
  exact .pure (h.trans (hput.trans (updateActive_wealth _ _ _)))

lemma executeCandidateBondLess_wealth (now : ℕ) :
    Returns (SameWealth l) (l.executeCandidateBondLess now c) := by
  intro l' h
  simp only [executeCandidateBondLess, CandidateMetadata.executeBondLess, bind_eq_ok, okOr_eq_ok,
    ensure_eq_ok, pure_eq_ok, exists_const, Prod.exists, Prod.mk.injEq] at h
  obtain ⟨controller, m, -, m', l₁, ⟨request, -, -, -, rfl⟩, rfl⟩ := h
  refine SameWealth.trans ?_ ((updateActive_wealth _ controller _).trans (.of_eq rfl rfl))
  exact ⟨fun a => Currency.unreserve_wealth _ _ _ a, rfl⟩

/-- The stakes that go back to the nominators of a candidate. -/
lemma returnStake_wealth (bond : Bond AccountId) :
    Returns (SameWealth l) (returnStake c l bond) := by
  have hback : SameWealth l { l with currency := l.currency.unreserve bond.owner bond.amount } :=
    ⟨fun a => Currency.unreserve_wealth _ _ _ a, rfl⟩
  refine .bind fun nominator => ?_
  dsimp only
  cases nominator.rmNomination c with
  | none => exact .pure hback
  | some r => exact .ite (.pure (hback.trans (.of_eq rfl rfl))) (.pure (hback.trans (.of_eq rfl rfl)))

lemma executeLeave_wealth (stash : AccountId) :
    Returns (SameWealth l) (l.executeLeave stash c m) := by
  have hreturn : ∀ (bonds : List (Bond AccountId)) (l₁ : Ledger AccountId), SameWealth l l₁ →
      Returns (SameWealth l) (bonds.foldlM (returnStake c) l₁) := fun bonds l₁ h =>
    .foldlM (fun _ bond ht => fun _ hr => ht.trans (returnStake_wealth bond _ hr)) h
  refine .bind fun top => .bind_of (hreturn _ _ (.of_eq rfl rfl)) fun l₁ h₁ => ?_
  refine .bind fun bottom => .bind_of (hreturn _ _ (h₁.trans (.of_eq rfl rfl))) fun l₂ h₂ => ?_
  exact .pure (h₂.trans ⟨fun a => Currency.unreserve_wealth _ _ _ a, rfl⟩)

end Ledger

end Moves

/-! ## Rewards -/

/-- Nobody loses, and what any accounts gain together is counted. -/
structure Enriched (l l' : Ledger AccountId) : Prop where
  gain : ∀ a, l.currency.wealth a ≤ l'.currency.wealth a
  counted : ∀ A : Finset AccountId, ∑ a ∈ A, l'.currency.wealth a + l.awardedTokens ≤
    ∑ a ∈ A, l.currency.wealth a + l'.awardedTokens

namespace Enriched

variable {l l₁ l₂ : Ledger AccountId}

lemma of_same (h : SameWealth l l₁) : Enriched l l₁ := by
  refine ⟨fun a => (h.wealth a).ge, fun A => ?_⟩
  rw [h.awarded, Finset.sum_congr rfl fun a _ => h.wealth a]

lemma refl (l : Ledger AccountId) : Enriched l l := .of_same (.refl l)

lemma trans (h₁ : Enriched l l₁) (h₂ : Enriched l₁ l₂) : Enriched l l₂ := by
  refine ⟨fun a => (h₁.gain a).trans (h₂.gain a), fun A => ?_⟩
  have hfirst := h₁.counted A
  have hsecond := h₂.counted A
  omega

end Enriched

section Rewards

variable [LinearOrder AccountId] {cfg : Config AccountId} {l l' : Ledger AccountId}
  {c n : AccountId}

namespace Ledger

/-- `mint_reward` counts what it mints. -/
lemma mintReward_enriched (amount : ℕ) (dest : AccountId) :
    Enriched l (l.mintReward amount dest) := by
  rw [mintReward]
  cases hcur : l.currency.depositIntoExisting dest amount with
  | none => exact .refl l
  | some currency =>
      have hwealth := Currency.deposit_wealth hcur
      refine ⟨fun a => ?_, fun A => ?_⟩
      · show l.currency.wealth a ≤ currency.wealth a
        rw [hwealth a]
        exact Nat.le_add_right _ _
      · show ∑ a ∈ A, currency.wealth a + l.awardedTokens ≤ _ + (l.awardedTokens + amount)
        rw [Finset.sum_congr rfl fun a _ => hwealth a, Finset.sum_add_distrib]
        have hone : (∑ a ∈ A, if a = dest then amount else 0) ≤ amount := by
          rw [Finset.sum_ite_eq']
          split_ifs
          · exact le_rfl
          · exact Nat.zero_le _
        omega

lemma handleValidatorRewardPayout_enriched (stash : AccountId) (reward : ℕ) :
    Returns (Enriched l) (l.handleValidatorRewardPayout c stash reward) := by
  rw [handleValidatorRewardPayout]
  cases l.candidateInfo.get c with
  | none => exact .pure (.refl l)
  | some m =>
      have hmint : Enriched l (l.mintReward reward stash) := mintReward_enriched reward stash
      dsimp only
      cases (m.incrementAwardedTokens reward).rewardDst with
      | staked =>
          refine .bind_of (bondMore_wealth _ reward) fun r h => ?_
          exact .pure (hmint.trans (.of_same (h.trans
            ((updateActive_wealth _ _ _).trans (.of_eq rfl rfl)))))
      | account => exact .pure (hmint.trans (.of_same (.of_eq rfl rfl)))

lemma handleNominatorRewardPayout_enriched (reward : ℕ) :
    Enriched l (l.handleNominatorRewardPayout cfg c n reward) := by
  rw [handleNominatorRewardPayout]
  cases l.nominatorState.get n with
  | none => exact .refl l
  | some st =>
      dsimp only
      split_ifs
      · refine (mintReward_enriched reward n).trans (.of_same ?_)
        generalize l.mintReward reward n = l₀
        cases (st.incrementAwardedTokens c reward).rewardDst with
        | staked =>
            have hinc : SameWealth l₀
                ((st.incrementAwardedTokens c reward).increaseNomination cfg l₀ c reward).2 :=
              increaseNomination_wealth (st.incrementAwardedTokens c reward) c reward
            dsimp only
            split
            · rename_i st' l₁ heq
              rw [heq] at hinc
              exact hinc.trans (.of_eq rfl rfl)
            · rename_i heq
              rw [heq] at hinc
              exact hinc.trans (.of_eq rfl rfl)
        | account => exact .of_eq rfl rfl
      · exact .refl l

/-- The payments to the nominators raise what accounts own by what is awarded. -/
lemma nominatorShares_enriched :
    ∀ (shares : List (AccountId × ℕ)) (l : Ledger AccountId),
      Enriched l (shares.foldl (fun l share => if share.2 = 0 then l
        else l.handleNominatorRewardPayout cfg c share.1 share.2) l) := by
  intro shares
  induction shares with
  | nil => exact .refl
  | cons share shares ih =>
      intro l
      rw [List.foldl_cons]
      split_ifs
      · exact ih l
      · exact (handleNominatorRewardPayout_enriched _).trans (ih _)

/-- **The payments of one validator**: nobody loses, and what is minted is counted. -/
lemma payShares_enriched {stash : AccountId} {shares : Shares AccountId}
    (h : l.payShares cfg c stash shares = some l') : Enriched l l' := by
  obtain ⟨l₁, h₁, rfl⟩ := Option.map_eq_some_iff.mp h
  exact (handleValidatorRewardPayout_enriched _ _ _ (toOption_eq_some.mp h₁)).trans
    (nominatorShares_enriched shares.nominators l₁)

lemma payValidator_enriched {m : CandidateMetadata AccountId} {info : DelayedPayout}
    {pts points paid : ℕ} {snapshot : ValidatorSnapshot AccountId}
    (h : l.payValidator cfg c m info pts points snapshot = some (paid, l')) : Enriched l l' := by
  rw [payValidator_eq] at h
  obtain ⟨l₁, h₁, heq⟩ := Option.map_eq_some_iff.mp h
  obtain ⟨-, rfl⟩ := Prod.mk.inj heq
  exact payShares_enriched h₁

/-- **What the validator gets.**  Its stash owns the reward, and `AwardedTokens` counts it, unless the
account is gone. -/
lemma payShares_gains {stash : AccountId} {m : CandidateMetadata AccountId} {shares : Shares AccountId}
    (hm : l.candidateInfo.get c = some m) (hbalance : l.currency.totalBalance stash ≠ 0)
    (h : l.payShares cfg c stash shares = some l') :
    l.currency.wealth stash + shares.validator ≤ l'.currency.wealth stash ∧
      l.awardedTokens + shares.validator ≤ l'.awardedTokens := by
  obtain ⟨l₁, h₁, hl'⟩ := Option.map_eq_some_iff.mp h
  have hrest : Enriched l₁ l' := hl' ▸ nominatorShares_enriched shares.nominators l₁
  -- the deposit does not fail
  obtain ⟨currency, hcur⟩ : ∃ currency,
      l.currency.depositIntoExisting stash shares.validator = some currency := by
    rw [Currency.totalBalance] at hbalance
    rw [Currency.depositIntoExisting, if_neg hbalance]
    exact ⟨_, rfl⟩
  have hmint : l.mintReward shares.validator stash =
      { l with currency := currency, awardedTokens := l.awardedTokens + shares.validator } := by
    rw [mintReward, hcur]
  have hwealth : currency.wealth stash = l.currency.wealth stash + shares.validator := by
    rw [Currency.deposit_wealth hcur, if_pos rfl]
  have hsame : SameWealth (l.mintReward shares.validator stash) l₁ := by
    replace h₁ := toOption_eq_some.mp h₁
    simp only [handleValidatorRewardPayout, hm] at h₁
    generalize l.mintReward shares.validator stash = l₀ at h₁ ⊢
    cases hdst : (m.incrementAwardedTokens shares.validator).rewardDst with
    | account =>
        rw [hdst] at h₁
        obtain rfl := Except.ok.inj h₁
        exact .of_eq rfl rfl
    | staked =>
        simp only [hdst, bind_eq_ok, pure_eq_ok, Prod.exists] at h₁
        obtain ⟨m', l₂, hbond, rfl⟩ := h₁
        exact (bondMore_wealth _ _ _ hbond).trans ((updateActive_wealth _ _ _).trans (.of_eq rfl rfl))
  have hgain := hrest.gain stash
  have hcounted := hrest.counted ∅
  rw [hsame.wealth stash, hmint] at hgain
  rw [hsame.awarded, hmint] at hcounted
  simp only [Finset.sum_empty, Nat.zero_add] at hcounted
  replace hgain : currency.wealth stash ≤ _ := hgain
  exact ⟨hwealth ▸ hgain, hcounted⟩

end Ledger

end Rewards

/-! ## Calls -/

section Calls

variable [LinearOrder AccountId] {cfg : Config AccountId} {rm : RelayManager AccountId R}
  {s s' : State AccountId R} {who : AccountId}

omit [LinearOrder AccountId] in
lemma SameWealth.onLedger {r : Except Error (Ledger AccountId)} (hr : Returns (SameWealth s.ledger) r)
    (h : s.onLedger r = .ok s') : SameWealth s.ledger s'.ledger := by
  cases r with
  | error e => cases h
  | ok l =>
      obtain rfl := Except.ok.inj h
      exact hr l rfl

/-- **Every call with a signed origin** moves tokens within accounts only. -/
lemma State.signed_wealth {call : Call AccountId} (h : s.signed cfg rm who call = .ok s') :
    SameWealth s.ledger s'.ledger := by
  have hsame : s'.ledger = s.ledger → SameWealth s.ledger s'.ledger := fun heq => heq ▸ .refl _
  cases call with
  | joinCandidates controller relayer amount count =>
      simp only [State.signed, State.joinCandidates, Ledger.join, Ledger.tryInsertPool, bind_eq_ok,
        ensure_eq_ok, pure_eq_ok, exists_const] at h
      obtain ⟨-, -, -, -, -, -, -, currency, hcur, relay, -, l, ⟨l₁, ⟨-, rfl⟩, rfl⟩, rfl⟩ := h
      exact ⟨fun a => Currency.reserve_wealth hcur a, rfl⟩
  | executeLeaveCandidates count =>
      simp only [State.signed, State.executeLeaveCandidates, bind_eq_ok, ensure_eq_ok, pure_eq_ok,
        exists_const, Prod.exists] at h
      obtain ⟨controller, m, -, -, -, -, l, hleave, rfl⟩ := h
      exact Ledger.executeLeave_wealth _ _ hleave
  | setValidatorTier more new relayer =>
      simp only [State.signed, State.setValidatorTier, bind_eq_ok, ensure_eq_ok, pure_eq_ok,
        exists_const, Prod.exists] at h
      obtain ⟨controller, m, -, -, m', l, relay, hmore, rfl⟩ := h
      have hbond : SameWealth s.ledger l := Ledger.bondMore_wealth _ _ _ (State.bondForTier_ok hmore)
      refine hbond.trans (SameWealth.trans ?_ (Ledger.updateActive_wealth _ _ _))
      exact .of_eq rfl rfl
  | scheduleLeaveCandidates count =>
      simp only [State.signed, State.scheduleLeaveCandidates, Ledger.removeFromCandidatePool,
        CandidateMetadata.scheduleLeave, bind_eq_ok, okOr_eq_ok, ensure_eq_ok, pure_eq_ok,
        exists_const] at h
      obtain ⟨m, -, -, -, -, ⟨⟩, -, m', ⟨-, -, rfl⟩, rfl⟩ := h
      exact .of_eq rfl rfl
  | cancelLeaveCandidates count =>
      simp only [State.signed, State.cancelLeaveCandidates, Ledger.tryInsertPool, bind_eq_ok,
        okOr_eq_ok, ensure_eq_ok, pure_eq_ok, exists_const] at h
      obtain ⟨m, -, -, -, l, ⟨-, rfl⟩, rfl⟩ := h
      exact .of_eq rfl rfl
  | goOnline =>
      simp only [State.signed, State.goOnline, Ledger.tryInsertPool, bind_eq_ok, okOr_eq_ok,
        ensure_eq_ok, pure_eq_ok, exists_const] at h
      obtain ⟨m, -, -, -, l, ⟨-, rfl⟩, rfl⟩ := h
      exact .of_eq rfl rfl
  | goOffline =>
      simp only [State.signed, State.goOffline, Ledger.removeFromCandidatePool, bind_eq_ok,
        okOr_eq_ok, ensure_eq_ok, pure_eq_ok, exists_const] at h
      obtain ⟨m, -, -, ⟨⟩, -, rfl⟩ := h
      exact .of_eq rfl rfl
  | setController new =>
      have hledger : Returns (fun t : State AccountId R => t.ledger = s.ledger)
          (s.setController who new) :=
        .bind fun _ => .bind fun _ => .bind fun _ => .bind fun _ => .bind fun _ => .bind fun _ =>
          .bind fun _ => .pure rfl
      exact hsame (hledger s' h)
  | cancelControllerSet =>
      have hledger : Returns (fun t : State AccountId R => t.ledger = s.ledger)
          (s.cancelControllerSet who) := .bind fun _ => .bind fun _ => .pure rfl
      exact hsame (hledger s' h)
  | setValidatorCommission new => exact hsame (State.setValidatorCommission_idle new s' h).ledger
  | cancelValidatorCommissionSet => exact hsame (State.cancelValidatorCommissionSet_idle s' h).ledger
  | candidateBondMore more => exact .onLedger (Ledger.candidateBondMore_wealth more) h
  | scheduleCandidateBondLess less => exact .onLedger Ledger.updateCandidate_wealth h
  | executeCandidateBondLess => exact .onLedger (Ledger.executeCandidateBondLess_wealth s.now) h
  | cancelCandidateBondLess => exact .onLedger Ledger.updateCandidate_wealth h
  | setCandidateRewardDst dst => exact .onLedger Ledger.updateCandidate_wealth h
  | nominate candidate amount i j => exact .onLedger (Ledger.nominate_wealth amount i j) h
  | executeLeaveNominators count =>
      exact .onLedger (Ledger.executeLeaveNominators_wealth s.now count) h
  | nominatorBondMore candidate more => exact .onLedger (Ledger.nominatorBondMore_wealth more) h
  | executeNominationRequest candidate =>
      exact .onLedger (Ledger.executeNominationRequest_wealth s.now) h
  | setNominatorRewardDst dst => exact .onLedger Ledger.updateNominator_wealth h
  | scheduleLeaveNominators => exact .onLedger Ledger.updateNominator_wealth h
  | cancelLeaveNominators => exact .onLedger Ledger.updateNominator_wealth h
  | scheduleRevokeNomination validator => exact .onLedger Ledger.updateNominator_wealth h
  | scheduleNominatorBondLess candidate less => exact .onLedger Ledger.updateNominator_wealth h
  | cancelNominationRequest candidate => exact .onLedger Ledger.updateNominator_wealth h
  | _ => cases h

/-- No call changes what an account owns. -/
lemma State.dispatch_wealth {origin : Origin AccountId} {call : Call AccountId}
    (h : s.dispatch cfg rm origin call = .ok s') : SameWealth s.ledger s'.ledger := by
  have hidle : Idle s s' → SameWealth s.ledger s'.ledger := fun hi => hi.ledger ▸ .refl _
  cases call with
  | setStakingExpectations x => exact hidle (State.setStakingExpectations_idle x _ h)
  | setInflation x => exact hidle (State.setInflation_idle x _ h)
  | setMaxFullSelected x => exact hidle (State.setMaxFullSelected_idle x _ h)
  | setMaxBasicSelected x => exact hidle (State.setMaxBasicSelected_idle x _ h)
  | setDefaultValidatorCommission x tier =>
      exact hidle (State.setDefaultValidatorCommission_idle x tier _ h)
  | setMaxValidatorCommission x tier => exact hidle (State.setMaxValidatorCommission_idle x tier _ h)
  | setBlocksPerRound x => exact hidle (State.setBlocksPerRound_idle x _ h)
  | setStorageCacheLifetime x => exact hidle (State.setStorageCacheLifetime_idle x _ h)
  | _ =>
      obtain ⟨who, -, hsigned⟩ := bind_eq_ok.mp h
      exact State.signed_wealth hsigned

end Calls

/-! ## Hooks -/

section Hooks

variable [LinearOrder AccountId] {cfg : Config AccountId} {rm : RelayManager AccountId R}
  {s s' : State AccountId R}

lemma Ledger.replaceNominatorNominations_balances (old new : AccountId) :
    ∀ (ns : List AccountId) (l : Ledger AccountId),
      (l.replaceNominatorNominations ns old new).currency = l.currency ∧
        (l.replaceNominatorNominations ns old new).awardedTokens = l.awardedTokens := by
  intro ns
  induction ns with
  | nil => exact fun l => ⟨rfl, rfl⟩
  | cons n ns ih =>
      intro l
      rw [replaceNominatorNominations, List.foldl_cons, ← replaceNominatorNominations, (ih _).1,
        (ih _).2]
      split
      · exact ⟨rfl, rfl⟩
      · exact ⟨rfl, rfl⟩

lemma Ledger.replaceController_wealth (l : Ledger AccountId) (x : DelayedControllerSet AccountId)
    (m : CandidateMetadata AccountId) : SameWealth l (l.replaceController x m) := by
  have hrenamed := fun ns (l : Ledger AccountId) =>
    Ledger.replaceNominatorNominations_balances x.old x.new ns l
  refine .of_eq ?_ ?_
  · simp only [replaceController]
    split <;> split <;> simp only [(hrenamed _ _).1]
  · simp only [replaceController]
    split <;> split <;> simp only [(hrenamed _ _).2]

/-- The controller changes of a round move nothing that an account owns. -/
lemma State.applyControllerSets_wealth {now : ℕ} :
    ∀ (xs : List (DelayedControllerSet AccountId)) (s : State AccountId R),
      SameWealth s.ledger (xs.foldl (State.applyControllerSet rm now) s).ledger := by
  intro xs
  induction xs with
  | nil => exact fun s => .refl s.ledger
  | cons x xs ih =>
      intro s
      refine SameWealth.trans ?_ (ih _)
      rw [State.applyControllerSet]
      split
      · exact .refl s.ledger
      · exact s.ledger.replaceController_wealth x _

/-- The loop that takes the snapshots of the selected candidates. -/
lemma State.collectValidatorSnapshot_wealth {now : ℕ} {validators : List AccountId}
    {counts : ℕ × ℕ × ℕ} (h : s.collectValidatorSnapshot now validators = some (counts, s')) :
    SameWealth s.ledger s'.ledger := by
  refine foldlM_invariant (P := fun acc : (ℕ × ℕ × ℕ) × State AccountId R =>
    SameWealth s.ledger acc.2.ledger) (fun acc v acc' hacc hv => ?_) h (.refl s.ledger)
  simp only [State.countSnapshot, Option.bind_eq_bind, Option.bind_eq_some_iff, Option.pure_def,
    Option.some.injEq] at hv
  obtain ⟨m, -, top, -, rfl⟩ := hv
  exact hacc.trans (.of_eq rfl rfl)

/-- A round change leaves what an account owns as it was. -/
lemma State.newRound_wealth {now : ℕ} {full basic : List AccountId}
    (h : s.newRound cfg rm now full basic = some s') : SameWealth s.ledger s'.ledger := by
  simp only [State.newRound, Option.map_eq_some_iff, Prod.exists] at h
  obtain ⟨count, s₁, h₁, rfl⟩ := h
  simp only [State.selectForRound, State.updateTopCandidates, Option.bind_eq_bind,
    Option.bind_eq_some_iff, Option.pure_def, Option.some.injEq, Prod.exists, Prod.mk.injEq] at h₁
  obtain ⟨n, k, v, s₂, ⟨c₁, c₂, c₃, t₁, ht₁, d₁, d₂, d₃, t₂, ht₂, -, rfl⟩, -, rfl⟩ :=
    h₁
  have hreset : SameWealth s.ledger s.ledger.resetCandidateStates := .of_eq rfl rfl
  have hfull := State.collectValidatorSnapshot_wealth ht₁
  rw [State.prepareStakingPayouts_ledger] at hfull
  have hbasic := State.collectValidatorSnapshot_wealth ht₂
  have hselected : SameWealth s.ledger t₂.ledger := hreset.trans (hfull.trans hbasic)
  refine hselected.trans (SameWealth.trans ?_ (State.applyControllerSets_wealth _ _))
  exact SameWealth.foldl_modifyCandidate _ _ _ t₂.ledger

/-- `new_session` changes nothing that an account owns. -/
lemma State.newSession_wealth {now newIndex : ℕ} {validators : List AccountId}
    {hasKeys : AccountId → Bool} {out : Option (List AccountId)}
    (h : s.newSession cfg rm now newIndex validators hasKeys = some (out, s')) :
    SameWealth s.ledger s'.ledger := by
  simp only [State.newSession, State.tryNewRound, Option.bind_eq_bind, Option.bind_eq_some_iff,
    Option.pure_def, Option.some.injEq, Prod.mk.injEq] at h
  obtain ⟨s₁, h₁, -, rfl⟩ := h
  have henter : SameWealth s.ledger (s.enterSession now newIndex validators).ledger :=
    SameWealth.foldl_modifyCandidate _ _ validators s.ledger
  split_ifs at h₁
  · have hround : SameWealth (s.enterSession now newIndex validators).ledger s₁.ledger :=
      State.newRound_wealth h₁
    exact henter.trans hround
  · obtain rfl := Option.some.inj h₁
    exact henter

/-- **`on_initialize`** pays. -/
lemma State.onInitialize_enriched {n : ℕ} {drained : Option AccountId}
    {paid : Option (AccountId × ℕ)} (h : s.onInitialize cfg n drained = some (paid, s')) :
    Enriched s.ledger s'.ledger := by
  rcases State.onInitialize_cases h with ⟨snapshot, -, hpay⟩
  cases hpay with
  | idle => exact .refl _
  | closed => exact .refl _
  | lost => exact .refl _
  | paid _ _ _ hl => exact Ledger.payValidator_enriched hl

/-! ### Slashes -/

/-- An offence takes nothing, or something out of the reserve of the stash. -/
lemma Offences.tryHandleOffence_slashes {o o' : Offences AccountId} {cur cur' : Currency AccountId}
    {who stash : AccountId} {tier : TierType} {offence : Offence} {out : Bool × ℕ}
    (h : o.tryHandleOffence cur who stash tier offence = (out, o', cur')) :
    cur' = cur ∨ ∃ value, cur' = cur.slashReserved stash value := by
  have hnothing : ∀ {y : Bool × ℕ} {x : Offences AccountId}, (y, x, cur) = (out, o', cur') →
      cur' = cur ∨ ∃ value, cur' = cur.slashReserved stash value := by
    intro y x hx
    simp only [Prod.mk.injEq] at hx
    exact Or.inl hx.2.2.symm
  simp only [Offences.tryHandleOffence, Offences.handleOffence] at h
  split_ifs at h
  · cases hwho : o.validatorOffences.get who with
    | none =>
        rw [hwho] at h
        exact hnothing h
    | some offences =>
        simp only [hwho, Offences.trySlash] at h
        split_ifs at h
        · simp only [Prod.mk.injEq] at h
          exact Or.inr ⟨_, h.2.2.symm⟩
        · exact hnothing h
        · exact hnothing h
  · exact hnothing h

/-- One offender: nobody else is slashed. -/
lemma State.offend_wealth {slashSession : ℕ} {details : AccountId × Perbill} (hs : StateInv cfg s)
    (h : s.offend cfg rm slashSession details = some s') :
    s'.ledger.awardedTokens = s.ledger.awardedTokens ∧
      s'.ledger.bondedStash = s.ledger.bondedStash ∧
      (∀ a, s'.ledger.currency.wealth a ≤ s.ledger.currency.wealth a) ∧
      ∀ a, s.ledger.bondedStash.get a ≠ some details.1 →
        s'.ledger.currency.wealth a = s.ledger.currency.wealth a := by
  have hslash : ∀ {m : CandidateMetadata AccountId} {cur : Currency AccountId},
      s.ledger.candidateInfo.get details.1 = some m →
      (cur = s.ledger.currency ∨ ∃ value, cur = s.ledger.currency.slashReserved m.stash value) →
      (∀ a, cur.wealth a ≤ s.ledger.currency.wealth a) ∧
        ∀ a, s.ledger.bondedStash.get a ≠ some details.1 →
          cur.wealth a = s.ledger.currency.wealth a := by
    intro m cur hm hcur
    rcases hcur with rfl | ⟨value, rfl⟩
    · exact ⟨fun _ => le_rfl, fun _ _ => rfl⟩
    · refine ⟨fun a => Currency.slashReserved_wealth_le _ _ _ a, fun a ha => ?_⟩
      refine Currency.slashReserved_wealth_of_ne _ ?_ _
      rintro rfl
      exact ha ((hs.ledger.books.stash_iff _ _).mpr ⟨m, hm, rfl⟩)
  cases State.offend_cases h with
  | ignored _ => exact ⟨rfl, rfl, fun _ => le_rfl, fun _ _ => rfl⟩
  | recorded hm _ hres =>
      obtain ⟨hle, heq⟩ := hslash hm (Offences.tryHandleOffence_slashes hres)
      exact ⟨rfl, rfl, hle, heq⟩
  | punished hm _ hres =>
      obtain ⟨hle, heq⟩ := hslash hm (Offences.tryHandleOffence_slashes hres)
      exact ⟨rfl, rfl, hle, heq⟩

/-- `on_offence` takes only from the stash accounts of the offenders. -/
lemma State.onOffence_wealth {offenders : List (AccountId × Perbill)} {slashSession : ℕ}
    (hs : StateInv cfg s) (h : s.onOffence cfg rm offenders slashSession = some s') :
    s'.ledger.awardedTokens = s.ledger.awardedTokens ∧
      (∀ a, s'.ledger.currency.wealth a ≤ s.ledger.currency.wealth a) ∧
      ∀ a, (∀ o ∈ offenders, s.ledger.bondedStash.get a ≠ some o.1) →
        s'.ledger.currency.wealth a = s.ledger.currency.wealth a := by
  induction offenders generalizing s with
  | nil =>
      obtain rfl : s = s' := by simpa [State.onOffence] using h
      exact ⟨rfl, fun _ => le_rfl, fun _ _ => rfl⟩
  | cons o offenders ih =>
      rw [State.onOffence, List.foldlM_cons] at h
      obtain ⟨s₁, h₁, h⟩ := Option.bind_eq_some_iff.mp h
      obtain ⟨hawarded, hstashes, hle, heq⟩ := State.offend_wealth hs h₁
      obtain ⟨hawarded', hle', heq'⟩ := ih ((State.offend_keeps h₁).inv hs) h
      refine ⟨hawarded'.trans hawarded, fun a => (hle' a).trans (hle a), fun a ha => ?_⟩
      refine (heq' a fun o' ho' => ?_).trans (heq a (ha o List.mem_cons_self))
      rw [hstashes]
      exact ha o' (List.mem_cons_of_mem _ ho')

end Hooks

/-! ## Runs -/

/-- No tokens come or go by way of other pallets. -/
def Step.Closed : Step AccountId R → Prop
  | .balances _ _ => False
  | _ => True

section Runs

variable [LinearOrder AccountId] {cfg : Config AccountId} {rm : RelayManager AccountId R}
  {s s' : State AccountId R}

/-- **Step lemma.**  In a closed step any accounts gain at most what is awarded, and whom it spares loses
nothing. -/
lemma State.step_wealth {i : Step AccountId R} (hs : StateInv cfg s) (hi : i.Closed)
    (h : s.step cfg rm i = some s') :
    (∀ A : Finset AccountId, ∑ a ∈ A, s'.ledger.currency.wealth a + s.ledger.awardedTokens ≤
      ∑ a ∈ A, s.ledger.currency.wealth a + s'.ledger.awardedTokens) ∧
    ∀ a, i.Spares a s → s.ledger.currency.wealth a ≤ s'.ledger.currency.wealth a := by
  have hgain : Enriched s.ledger s'.ledger →
      (∀ A : Finset AccountId, ∑ a ∈ A, s'.ledger.currency.wealth a + s.ledger.awardedTokens ≤
        ∑ a ∈ A, s.ledger.currency.wealth a + s'.ledger.awardedTokens) ∧
      ∀ a, i.Spares a s → s.ledger.currency.wealth a ≤ s'.ledger.currency.wealth a :=
    fun hrich => ⟨hrich.counted, fun a _ => hrich.gain a⟩
  cases i with
  | call origin call =>
      obtain rfl := Option.some.inj h
      refine hgain (commit_induction (P := fun t : State AccountId R => Enriched s.ledger t.ledger)
        (.refl _) fun t ht => .of_same (State.dispatch_wealth ht))
  | onInitialize n drained =>
      obtain ⟨⟨paid, s₁⟩, h₁, rfl⟩ := Option.map_eq_some_iff.mp h
      exact hgain (State.onInitialize_enriched h₁)
  | noteAuthor author =>
      obtain rfl := Option.some.inj h
      exact hgain (.of_same (SameWealth.modifyCandidate _ _ _))
  | newSession now newIndex validators hasKeys =>
      obtain ⟨⟨out, s₁⟩, h₁, rfl⟩ := Option.map_eq_some_iff.mp h
      exact hgain (.of_same (State.newSession_wealth h₁))
  | onOffence offenders slashSession =>
      obtain ⟨hawarded, hle, heq⟩ := State.onOffence_wealth hs h
      refine ⟨fun A => ?_, fun a ha => (heq a ha).ge⟩
      rw [hawarded]
      exact Nat.add_le_add_right (Finset.sum_le_sum fun a _ => hle a) _
  | balances free others => exact hi.elim
  | endSession =>
      obtain rfl := Option.some.inj h
      exact hgain (.refl s.ledger)
  | relay state =>
      obtain rfl := Option.some.inj h
      exact hgain (.refl s.ledger)
  | offenceSettings isOffenceActive isSlashActive expiration full basic =>
      obtain rfl := Option.some.inj h
      exact hgain (.refl s.ledger)

/-- **Nothing comes from nowhere, and nothing is lost.**  Along every run in which no tokens come or go by
way of other pallets, any accounts together gain at most what is added to `AwardedTokens`, and an account
never owns less than before unless an offence of its own candidate is reported. -/
theorem wealth_conserved {cond : State AccountId R → Step AccountId R → Prop}
    (h : ReachableIf cfg rm anyStep s) (hcond : ∀ t i, cond t i → i.Closed)
    (hrun : Reachable (fun t => t = s) (State.step cfg rm) cond s') :
    (∀ A : Finset AccountId, ∑ a ∈ A, s'.ledger.currency.wealth a + s.ledger.awardedTokens ≤
      ∑ a ∈ A, s.ledger.currency.wealth a + s'.ledger.awardedTokens) ∧
    ∀ a, (∀ t i, cond t i → i.Spares a t) →
      s.ledger.currency.wealth a ≤ s'.ledger.currency.wealth a := by
  have hall := Reachable.invariant (P := fun t : State AccountId R => ReachableIf cfg rm anyStep t ∧
    (∀ A : Finset AccountId, ∑ a ∈ A, t.ledger.currency.wealth a + s.ledger.awardedTokens ≤
      ∑ a ∈ A, s.ledger.currency.wealth a + t.ledger.awardedTokens) ∧
    ∀ a, (∀ t i, cond t i → i.Spares a t) →
      s.ledger.currency.wealth a ≤ t.ledger.currency.wealth a) ?_ ?_ hrun
  · exact hall.2
  · rintro t rfl
    exact ⟨h, fun _ => le_rfl, fun _ _ => le_rfl⟩
  · intro t i t' ⟨hreach, hcounted, hgain⟩ hi hstep
    obtain ⟨hnext, hspared⟩ := State.step_wealth hreach.inv (hcond t i hi) hstep
    refine ⟨.step hreach trivial hstep, fun A => ?_, fun a ha => ?_⟩
    · have hbefore := hcounted A
      have hafter := hnext A
      omega
    · exact (hgain a ha).trans (hspared a (ha t i hi))

/-- The first candidate bonds more, and a nominator joins it. -/
def devnetBonds : List (Step ℕ Unit) :=
  [.call (.signed 1) (.candidateBondMore 10), .call (.signed 7) (.nominate 2 50 2 0)]

/-- Accounts 1 and 7 have reserved more than before, and own together what they owned. -/
theorem wealth_conserved_devnet : ∃ s s' : State ℕ Unit, ReachableIf devnet devnetRelays anyStep s ∧
    s.ledger.currency.reserved 1 < s'.ledger.currency.reserved 1 ∧
    s.ledger.currency.reserved 7 < s'.ledger.currency.reserved 7 ∧
    s'.ledger.currency.wealth 1 + s'.ledger.currency.wealth 7 + s.ledger.awardedTokens ≤
      s.ledger.currency.wealth 1 + s.ledger.currency.wealth 7 + s'.ledger.awardedTokens ∧
    s.ledger.currency.wealth 1 ≤ s'.ledger.currency.wealth 1 := by
  have hrun : (devnetRun []).any (fun s =>
      (runSteps (State.step devnet devnetRelays) s devnetBonds).any fun s' =>
        decide (s.ledger.currency.reserved 1 < s'.ledger.currency.reserved 1 ∧
          s.ledger.currency.reserved 7 < s'.ledger.currency.reserved 7)) = true := by decide
  obtain ⟨s, hs, hP⟩ := devnetRun_exists hrun
  obtain ⟨s', hsteps, hP⟩ := (Option.any_eq_true _ _).mp hP
  obtain ⟨hfirst, hseventh⟩ := of_decide_eq_true hP
  have hreach : Reachable (fun t => t = s) (State.step devnet devnetRelays)
      (fun t i => i.Closed ∧ i.Spares 1 t) s' := by
    refine Reachable.runSteps_of (.init rfl) (fun i hi t => ?_) hsteps
    simp only [devnetBonds, List.mem_cons, List.not_mem_nil, or_false] at hi
    rcases hi with rfl | rfl <;> exact ⟨trivial, trivial⟩
  obtain ⟨htogether, halone⟩ := wealth_conserved hs (fun _ _ hi => hi.1) hreach
  have hpair := htogether {1, 7}
  simp only [Finset.sum_pair (show (1 : ℕ) ≠ 7 by decide)] at hpair
  exact ⟨s, s', hs, hfirst, hseventh, hpair, halone 1 fun _ _ hi => hi.2⟩

end Runs

end BifrostNode.Staking
