import BifrostNode.Staking.Wealth

/-!
# Is everybody paid?

Who has points in a round is to be paid when its payout is made, one account in a block.

**What is missed.**  The block that drains an account that is no candidate pays nobody and closes the
round, so that all others are left out.  And a round with fewer blocks than there are accounts to drain is
over before all of them come up.

**Completeness.**  Where neither happens (`Step.PaysOut`), each block takes one entry out of `AwardedPts`,
so that the entries that are left and the blocks so far are together no more than the entries there were
(`QueueInv`).  When the payouts of a round end, none are left, and everybody has been paid once
(`payouts_complete`).
-/

namespace BifrostNode.Staking

open Transition

variable {AccountId R : Type} [LinearOrder AccountId]

/-! ## The condition -/

/-- The account that a payout drains is a candidate, and a round in which a payout is due has as many blocks
as there were accounts to drain. -/
def Step.PaysOut (cfg : Config AccountId) (a : Audit AccountId R) : Step AccountId R → Prop
  | .onInitialize _ (some v) => (a.state.due (a.state.payoutRound cfg)).isSome →
      (a.state.ledger.candidateInfo.get v).isSome
  | .newSession now _ _ _ => a.state.round.shouldUpdate now = true →
      (a.state.due (a.state.payoutRound cfg)).isSome →
      a.queued (a.state.payoutRound cfg) ≤ a.blocks
  | _ => True

instance (cfg : Config AccountId) (a : Audit AccountId R) (i : Step AccountId R) :
    Decidable (i.PaysOut cfg a) :=
  match i with
  | .onInitialize _ (some _) => inferInstanceAs (Decidable (_ → _))
  | .newSession _ _ _ _ => inferInstanceAs (Decidable (_ → _ → _))
  | .onInitialize _ none | .call _ _ | .noteAuthor _ | .endSession | .onOffence _ _ | .balances _ _
  | .relay _ | .offenceSettings _ _ _ _ _ => .isTrue trivial

/-- The step at which the payouts of a round end: they are removed, or the round in which they are
made is over. -/
def Audit.Ends (cfg : Config AccountId) (a a' : Audit AccountId R) (r : ℕ) : Prop :=
  a'.state.due r = none ∨
    r + cfg.rewardPaymentDelay = a.state.now ∧ a'.state.now ≠ a.state.now

instance (cfg : Config AccountId) (a a' : Audit AccountId R) (r : ℕ) : Decidable (a.Ends cfg a' r) :=
  inferInstanceAs (Decidable (_ ∨ _ ∧ _))

/-! ## Payments -/

/-- **A payment that was made**: the stash of the candidate owns its share, and `AwardedTokens` counts it.
Only an account without any balance gets nothing. -/
def Payment.Made (p : Payment AccountId R) : Prop :=
  ∃ m shares, p.before.ledger.candidateInfo.get p.who = some m ∧
    p.before.shares p.round p.who = some shares ∧
    (p.before.ledger.currency.totalBalance m.stash ≠ 0 →
      p.before.ledger.currency.wealth m.stash + shares.validator ≤
        p.after.ledger.currency.wealth m.stash ∧
      p.before.ledger.awardedTokens + shares.validator ≤ p.after.ledger.awardedTokens)

section Complete

variable {cfg : Config AccountId} {rm : RelayManager AccountId R} {s s' : State AccountId R}
  {a a' : Audit AccountId R}

/-- Every payment of a step is made. -/
lemma State.payment_made {i : Step AccountId R} {r : ℕ} {v : AccountId}
    (hstep : s.step cfg rm i = some s') (hpay : s.payment cfg i = some (r, v)) :
    Payment.Made ⟨r, v, s, s'⟩ := by
  cases i with
  | onInitialize n drained =>
      obtain ⟨⟨paid, s₁⟩, h₁, h₂⟩ := Option.map_eq_some_iff.mp hstep
      replace h₂ : s₁ = s' := h₂
      subst h₂
      simp only [State.payment, h₁, Option.bind_some, Option.map_eq_some_iff, Prod.mk.injEq] at hpay
      obtain ⟨⟨w, total⟩, rfl, rfl, rfl⟩ := hpay
      obtain ⟨snapshot, -, hcases⟩ := State.onInitialize_cases h₁
      cases hcases with
      | @paid info _ pts _ m l hdue hpts hm hl =>
          have hdue' : s.due (s.payoutRound cfg) = some info := hdue
          have hpts' : s.rewards.awardedPts.get (s.payoutRound cfg, w) = some pts := hpts
          have hm' : s.ledger.candidateInfo.get w = some m := hm
          refine ⟨m, _, hm', State.shares_eq hdue' hm', fun hbalance => ?_⟩
          rw [Ledger.payValidator_eq] at hl
          obtain ⟨l', hl', heq⟩ := Option.map_eq_some_iff.mp hl
          obtain ⟨-, rfl⟩ := Prod.mk.inj heq
          rw [State.pointsOf, StorageMap.getD, hpts', Option.getD_some]
          exact Ledger.payShares_gains hm' hbalance hl'
  | _ => cases hpay

lemma Audit.step_eq_some {i : Step AccountId R} (h : a.step cfg rm i = some a') :
    a.state.step cfg rm i = some a'.state ∧
      a'.paid = (a.state.payment cfg i).toList ++ a.paid ∧
      ∀ r, a'.entitled r = if (a.state.due r).isNone ∧ (a'.state.due r).isSome
        then a'.state.creditors r else a.entitled r := by
  obtain ⟨s, hs, rfl⟩ := Option.map_eq_some_iff.mp h
  refine ⟨hs, ?_, fun _ => rfl⟩
  cases a.state.payment cfg i <;> simp [Audit.paid]

/-- How a step moves the entries to drain and the count of blocks. -/
lemma Audit.step_queue {i : Step AccountId R} (h : a.step cfg rm i = some a') :
    (∀ r, a'.queued r = if (a.state.due r).isNone ∧ (a'.state.due r).isSome
        then (a'.state.authors r).card else a.queued r) ∧
      a'.blocks = if a'.state.now = a.state.now then a.blocks + (if i.isBlock then 1 else 0) else 0 := by
  obtain ⟨s, hs, rfl⟩ := Option.map_eq_some_iff.mp h
  exact ⟨fun _ => rfl, rfl⟩

/-- What has been noted of a payout stays while it is due. -/
lemma Audit.noted_kept {i : Step AccountId R} (hstep : a.step cfg rm i = some a') {r : ℕ}
    (hdue : (a.state.due r).isSome) : a'.entitled r = a.entitled r ∧ a'.queued r = a.queued r := by
  have hold : ¬ ((a.state.due r).isNone ∧ (a'.state.due r).isSome) := by
    rintro ⟨hnone, -⟩
    simp [Option.isNone_iff_eq_none.mp hnone] at hdue
  rw [(Audit.step_eq_some hstep).2.2 r, (Audit.step_queue hstep).1 r, if_neg hold, if_neg hold]
  exact ⟨rfl, rfl⟩

/-- What is noted when a payout is prepared. -/
lemma Audit.noted_new {i : Step AccountId R} (hstep : a.step cfg rm i = some a') {r : ℕ}
    (hnew : (a.state.due r).isNone) (hdue : (a'.state.due r).isSome) :
    a'.entitled r = a'.state.creditors r ∧ a'.queued r = (a'.state.authors r).card := by
  rw [(Audit.step_eq_some hstep).2.2 r, (Audit.step_queue hstep).1 r, if_pos ⟨hnew, hdue⟩,
    if_pos ⟨hnew, hdue⟩]
  exact ⟨rfl, rfl⟩

omit [LinearOrder AccountId] in
/-- Before the round of its payout nothing is due for a round. -/
lemma Timely.due_isNone (ht : Timely cfg s) {r : ℕ} (hr : s.now < r + cfg.rewardPaymentDelay) :
    (s.due r).isNone := by
  by_contra hold
  have hlate := (ht.due r (by simpa [Option.isSome_iff_ne_none] using hold)).1
  omega

/-! ## Who has been paid -/

/-- **The payouts of a round so far.**  Whoever was entitled is waiting or has been paid, nobody has
been paid twice, and who has been paid does not wait. -/
structure PaidInv (cfg : Config AccountId) (a : Audit AccountId R) : Prop where
  timely : Timely cfg a.state
  drained : ∀ r v, (r, v) ∈ a.paid → r < a.state.now ∧
    a.state.rewards.awardedPts.get (r, v) = none
  nodup : a.paid.Nodup
  owed : ∀ r v, (a.state.due r).isSome → r + cfg.rewardPaymentDelay = a.state.now →
    v ∈ a.entitled r → a.state.pointsOf r v ≠ 0 ∨ (r, v) ∈ a.paid

/-- The payments while the payouts that are due stay. -/
lemma PaidInv.of_due_eq {i : Step AccountId R} (h : PaidInv cfg a) (hstep : a.step cfg rm i = some a')
    (ht : Timely cfg a'.state) (hpaid : a'.paid = a.paid) (hnow : a'.state.now = a.state.now)
    (hdue : ∀ r, a'.state.due r = a.state.due r)
    (hpts : ∀ r v, r < a.state.now →
      a'.state.rewards.awardedPts.get (r, v) = a.state.rewards.awardedPts.get (r, v)) :
    PaidInv cfg a' where
  timely := ht
  drained r v hv := by
    rw [hpaid] at hv
    obtain ⟨hlt, hnone⟩ := h.drained r v hv
    exact ⟨hnow ▸ hlt, (hpts r v hlt).trans hnone⟩
  nodup := hpaid ▸ h.nodup
  owed r v hr hround hv := by
    rw [hdue r] at hr
    rw [hnow] at hround
    rw [(Audit.noted_kept hstep hr).1] at hv
    have hlt := (h.timely.due r hr).2.1
    rw [hpaid, State.pointsOf, StorageMap.getD, hpts r v hlt]
    exact h.owed r v hr hround hv

omit [LinearOrder AccountId] in
/-- The payments when the payout of the round is closed. -/
lemma PaidInv.of_closed (h : PaidInv cfg a) (ht : Timely cfg a'.state) (hpaid : a'.paid = a.paid)
    (hnow : a'.state.now = a.state.now) (hdue : a'.state.due (a.state.payoutRound cfg) = none)
    (hpts : ∀ r v, a.state.rewards.awardedPts.get (r, v) = none →
      a'.state.rewards.awardedPts.get (r, v) = none) : PaidInv cfg a' where
  timely := ht
  drained r v hv := by
    rw [hpaid] at hv
    obtain ⟨hlt, hnone⟩ := h.drained r v hv
    exact ⟨hnow ▸ hlt, hpts r v hnone⟩
  nodup := hpaid ▸ h.nodup
  owed r v hr hround hv := by
    have hpay : r = a.state.payoutRound cfg := by
      rw [hnow] at hround
      rw [State.payoutRound]
      omega
    rw [hpay, hdue] at hr
    cases hr

/-- The payments when a round begins: nobody has been paid of what is prepared. -/
lemma PaidInv.turned {i : Step AccountId R} (h : PaidInv cfg a) (hstep : a.step cfg rm i = some a')
    (ht : Timely cfg a'.state) (hpaid : a'.paid = a.paid) (hturn : Turned cfg a.state a'.state) :
    PaidInv cfg a' where
  timely := ht
  drained r v hv := by
    rw [hpaid] at hv
    obtain ⟨hlt, hnone⟩ := h.drained r v hv
    rw [hturn.now, hturn.awarded r v (by omega) (by omega)]
    exact ⟨by omega, hnone⟩
  nodup := hpaid ▸ h.nodup
  owed r v hr hround hv := by
    rw [hturn.now] at hround
    have hnew := h.timely.due_isNone (r := r) (by omega)
    rw [(Audit.noted_new hstep hnew hr).1, State.mem_creditors] at hv
    exact Or.inl hv

/-- The payments when one more is made: the points that it is for are gone. -/
lemma PaidInv.paid {i : Step AccountId R} {w : AccountId} {pts : ℕ} (h : PaidInv cfg a)
    (hstep : a.step cfg rm i = some a') (ht : Timely cfg a'.state)
    (hpaid : a'.paid = (a.state.payoutRound cfg, w) :: a.paid) (hnow : a'.state.now = a.state.now)
    (hdue : ∀ r, a'.state.due r = a.state.due r)
    (hsome : (a.state.due (a.state.payoutRound cfg)).isSome)
    (hpts : a.state.rewards.awardedPts.get (a.state.payoutRound cfg, w) = some pts)
    (hawarded : ∀ r v, a'.state.rewards.awardedPts.get (r, v) =
      if (r, v) = (a.state.payoutRound cfg, w) then none
      else a.state.rewards.awardedPts.get (r, v)) : PaidInv cfg a' where
  timely := ht
  drained r v hv := by
    rw [hpaid, List.mem_cons] at hv
    rw [hawarded, hnow]
    rcases hv with hv | hv
    · rw [if_pos hv]
      obtain ⟨rfl, rfl⟩ := Prod.mk.inj hv
      exact ⟨(h.timely.due _ hsome).2.1, rfl⟩
    · obtain ⟨hlt, hnone⟩ := h.drained r v hv
      exact ⟨hlt, by rw [hnone, ite_self]⟩
  nodup := by
    rw [hpaid]
    refine List.nodup_cons.mpr ⟨fun hbefore => ?_, h.nodup⟩
    -- who is drained has not been paid before
    have hnone := (h.drained _ _ hbefore).2
    rw [hpts] at hnone
    cases hnone
  owed r v hr hround hv := by
    rw [hdue r] at hr
    rw [hnow] at hround
    rw [(Audit.noted_kept hstep hr).1] at hv
    rw [hpaid, List.mem_cons, State.pointsOf, StorageMap.getD, hawarded]
    by_cases hw : (r, v) = (a.state.payoutRound cfg, w)
    · exact Or.inr (Or.inl hw)
    · rw [if_neg hw]
      rcases h.owed r v hr hround hv with howed | hbefore
      · exact Or.inl howed
      · exact Or.inr (Or.inr hbefore)

/-- **Step lemma.**  Every step keeps the account of who waits for a payout and who has got it. -/
lemma PaidInv.step {i : Step AccountId R} (hl : LedgerInv cfg a.state.ledger) (h : PaidInv cfg a)
    (hstep : a.step cfg rm i = some a') : PaidInv cfg a' := by
  obtain ⟨hs, hpaid, -⟩ := Audit.step_eq_some hstep
  have hreward := State.step_rewards hl hs
  have ht : Timely cfg a'.state := h.timely.step hreward
  generalize a.state.payment cfg i = payment at hreward hpaid
  generalize hs' : a'.state = s' at hreward
  cases hreward with
  | quiet hr hn =>
      subst hs'
      refine h.of_due_eq hstep ht hpaid hn (fun r => ?_) fun r v _ => ?_
      · rw [State.due, hr, State.due]
      · rw [hr]
  | noted author =>
      refine h.of_due_eq hstep ht hpaid (by rw [hs']; rfl) (fun r => by rw [hs']; rfl) fun r v hr => ?_
      have hne : (r, v) ≠ (a.state.now, author) := by
        rintro ⟨⟩
        exact lt_irrefl _ hr
      rw [hs']
      exact StorageMap.get_insert_of_ne _ hne _
  | turned hturn =>
      subst hs'
      exact h.turned hstep ht hpaid hturn
  | payout hpay =>
      cases hpay with
      | idle =>
          exact h.of_due_eq hstep ht hpaid (by rw [hs']; rfl) (fun r => by rw [hs']; rfl)
            fun r v hr => by rw [hs']
      | closed =>
          exact h.of_closed ht hpaid (by rw [hs']; rfl)
            (by rw [hs']; exact StorageMap.get_remove_self _ _) fun r v hv => by rw [hs']; exact hv
      | @lost info w pts hdue hpts hgone =>
          refine h.of_closed ht hpaid (by rw [hs']; rfl)
            (by rw [hs']; exact StorageMap.get_remove_self _ _) fun r v hv => ?_
          simp only [hs', State.closePayout, State.takeAwarded, StorageMap.get_remove, hv, ite_self]
      | @paid info w pts total m l hdue hpts hm hl =>
          refine h.paid hstep ht hpaid (by rw [hs']; rfl) (fun r => by rw [hs']; rfl)
            (Option.isSome_iff_exists.mpr ⟨info, hdue⟩) hpts fun r v => ?_
          simp only [hs', State.withLedger, State.takeAtStake, State.takeAwarded,
            StorageMap.get_remove]

/-- **Run lemma.**  Whoever was entitled waits or has been paid, in every audited run. -/
lemma AuditedIf.paidInv {cond : Audit AccountId R → Step AccountId R → Prop}
    (h : AuditedIf cfg rm cond a) : PaidInv cfg a := by
  rw [AuditedIf] at h
  induction h with
  | init h0 =>
      obtain ⟨s, hs, rfl⟩ := h0
      refine ⟨hs.timely, ?_, List.nodup_nil, ?_⟩
      · intro r v hv
        cases hv
      · intro r v _ _ hv
        cases hv
  | step hreach _ hstep ih =>
      have hbefore : AuditedIf cfg rm cond _ := hreach
      exact ih.step hbefore.reachable.inv.ledger hstep

/-! ## The queue -/

/-- **The queue of a payout.**  The entries that are left and the blocks so far are together no more than
the entries that there were. -/
def QueueInv (cfg : Config AccountId) (a : Audit AccountId R) : Prop :=
  ∀ r, (a.state.due r).isSome → r + cfg.rewardPaymentDelay = a.state.now →
    (a.state.authors r).card + a.blocks ≤ a.queued r

lemma State.authors_congr {r : ℕ}
    (h : ∀ v, s'.rewards.awardedPts.get (r, v) = s.rewards.awardedPts.get (r, v)) :
    s'.authors r = s.authors r := by
  ext v
  rw [State.mem_authors, State.mem_authors, h v]

/-- A step that is no block and leaves the payouts and their points alone. -/
lemma QueueInv.same {i : Step AccountId R} (h : QueueInv cfg a) (hstep : a.step cfg rm i = some a')
    (hblock : i.isBlock = false) (hnow : a'.state.now = a.state.now)
    (hdue : ∀ r, a'.state.due r = a.state.due r)
    (hpts : ∀ r v, (a.state.due r).isSome →
      a'.state.rewards.awardedPts.get (r, v) = a.state.rewards.awardedPts.get (r, v)) :
    QueueInv cfg a' := by
  intro r hr hround
  rw [hdue r] at hr
  rw [(Audit.step_queue hstep).2, if_pos hnow, hblock, (Audit.noted_kept hstep hr).2,
    State.authors_congr fun v => hpts r v hr]
  exact h r hr (hround.trans hnow)

/-- The queue when a round begins: there has been no block yet. -/
lemma QueueInv.turned {i : Step AccountId R} (ht : Timely cfg a.state)
    (hstep : a.step cfg rm i = some a') (hturn : Turned cfg a.state a'.state) : QueueInv cfg a' := by
  intro r hr hround
  rw [hturn.now] at hround
  have hnew := ht.due_isNone (r := r) (by omega)
  rw [(Audit.noted_new hstep hnew hr).2, (Audit.step_queue hstep).2, hturn.now,
    if_neg (Nat.succ_ne_self _), Nat.add_zero]

/-- A block takes one entry out, if it does not close the round. -/
lemma QueueInv.onInitialize {n : ℕ} {drained : Option AccountId} (h : QueueInv cfg a)
    (hstep : a.step cfg rm (.onInitialize n drained) = some a') : QueueInv cfg a' := by
  obtain ⟨hs, -, -⟩ := Audit.step_eq_some hstep
  obtain ⟨⟨paid, s₁⟩, h₁, h₂⟩ := Option.map_eq_some_iff.mp hs
  replace h₂ : s₁ = a'.state := h₂
  subst h₂
  obtain ⟨snapshot, -, hpay⟩ := State.onInitialize_cases h₁
  have hnow : a'.state.now = a.state.now := hpay.now
  intro r hr hround
  rw [hnow] at hround
  have hpayout : r = a.state.now - cfg.rewardPaymentDelay := by omega
  generalize ha' : a'.state = s' at hpay hr
  cases hpay with
  | idle hdue =>
      -- nothing would be due
      rcases hdue with hearly | hnone
      · exact absurd hearly (show ¬ a.state.now < cfg.rewardPaymentDelay by omega)
      · replace hnone : a.state.due (a.state.now - cfg.rewardPaymentDelay) = none := hnone
        rw [← hpayout] at hnone
        simp only [State.due] at hr hnone
        rw [hnone] at hr
        cases hr
  | closed =>
      rw [hpayout] at hr
      simp [State.due, State.closePayout] at hr
  | lost =>
      rw [hpayout] at hr
      simp [State.due, State.closePayout] at hr
  | @paid info w pts total m l hdue hpts hm hl =>
      replace hr : (a.state.due r).isSome := hr
      replace hpts : a.state.rewards.awardedPts.get (r, w) = some pts := hpayout ▸ hpts
      have hauthors : a'.state.authors r = (a.state.authors r).erase w := by
        ext v
        rw [Finset.mem_erase, State.mem_authors, State.mem_authors, ha']
        simp only [State.withLedger, State.takeAtStake, State.takeAwarded, StorageMap.get_remove,
          ← hpayout, Prod.mk.injEq, true_and]
        split_ifs with hv
        · simp [hv]
        · simp [hv]
      have hmem : w ∈ a.state.authors r := State.mem_authors.mpr ⟨pts, hpts⟩
      have hcard := Finset.card_erase_add_one hmem
      have hbefore := h r hr hround
      rw [← ha', hauthors, (Audit.step_queue hstep).2, if_pos hnow, (Audit.noted_kept hstep hr).2]
      simp only [Step.isBlock, if_true]
      omega

/-- **Step lemma.**  Every step keeps the queue of a payout no longer than its blocks allow. -/
lemma QueueInv.step {i : Step AccountId R} (hl : LedgerInv cfg a.state.ledger)
    (ht : Timely cfg a.state) (h : QueueInv cfg a) (hstep : a.step cfg rm i = some a') :
    QueueInv cfg a' := by
  obtain ⟨hs, -, -⟩ := Audit.step_eq_some hstep
  cases i with
  | onInitialize n drained => exact h.onInitialize hstep
  | noteAuthor author =>
      have hs := Option.some.inj hs
      refine h.same hstep rfl (by rw [← hs]; rfl) (fun r => by rw [← hs]; rfl) fun r v hr => ?_
      have hlt := (ht.due r hr).2.1
      have hne : (r, v) ≠ (a.state.now, author) := by
        rintro ⟨⟩
        exact lt_irrefl _ hlt
      rw [← hs]
      exact StorageMap.get_insert_of_ne _ hne _
  | newSession now newIndex validators hasKeys =>
      obtain ⟨⟨out, s₁⟩, h₁, h₂⟩ := Option.map_eq_some_iff.mp hs
      replace h₂ : s₁ = a'.state := h₂
      subst h₂
      have hturn := State.newSession_turned h₁
      split_ifs at hturn
      · exact .turned ht hstep hturn
      · exact h.same hstep rfl hturn.2 (fun r => by rw [State.due, hturn.1, State.due])
          fun r v _ => by rw [hturn.1]
  | _ =>
      have haside := State.step_aside hl rfl hs
      exact h.same hstep rfl haside.now (fun r => by rw [State.due, haside.rewards, State.due])
        fun r v _ => by rw [haside.rewards]

/-- **Run lemma.**  The queue of a payout is no longer than its blocks allow, in every audited run. -/
lemma AuditedIf.queueInv {cond : Audit AccountId R → Step AccountId R → Prop}
    (h : AuditedIf cfg rm cond a) : QueueInv cfg a := by
  rw [AuditedIf] at h
  induction h with
  | init h0 =>
      obtain ⟨s, hs, rfl⟩ := h0
      intro r hr
      simp only [Audit.start, State.due, hs.unpaid.2.2.2.1] at hr
      cases hr
  | step hreach _ hstep ih =>
      have hbefore : AuditedIf cfg rm cond _ := hreach
      exact ih.step hbefore.reachable.inv.ledger hbefore.reachable.timely hstep

/-- **Every payment of a run** is made. -/
lemma AuditedIf.made {cond : Audit AccountId R → Step AccountId R → Prop}
    (h : AuditedIf cfg rm cond a) : ∀ p ∈ a.payments, p.Made := by
  refine Reachable.invariant (P := fun a => ∀ p ∈ a.payments, p.Made) ?_ ?_ h
  · rintro a ⟨s, -, rfl⟩ p hp
    cases hp
  · intro a i a' hmade _ hstep p hp
    obtain ⟨s, hs, rfl⟩ := Option.map_eq_some_iff.mp hstep
    rcases List.mem_append.mp hp with hp | hp
    · obtain ⟨⟨r, v⟩, hpay, rfl⟩ := List.mem_map.mp hp
      exact State.payment_made hs (Option.mem_toList.mp hpay)
    · exact hmade p hp

/-! ## The end of a payout -/

/-- Why a payout is removed. -/
lemma PayoutStep.ended {s s' : State AccountId R} {round r : ℕ} {drained : Option AccountId}
    {paid : Option (AccountId × ℕ)} (h : PayoutStep cfg s round drained paid s')
    (hdue : (s.due r).isSome) (hnone : s'.due r = none) :
    r = round ∧ (s.rewards.points.getD round 0 = 0 ∨ s.authors round = ∅ ∨
      ∃ v, drained = some v ∧ s.ledger.candidateInfo.get v = none) := by
  have hround : ∀ {t : State AccountId R}, t.due r = s.due r →
      (t.closePayout round).due r = none → r = round := by
    intro t ht hclosed
    by_contra hne
    simp only [State.due, State.closePayout, StorageMap.get_remove_of_ne _ hne] at hclosed
    rw [← ht, State.due, hclosed] at hdue
    cases hdue
  cases h with
  | idle =>
      rw [hnone] at hdue
      cases hdue
  | closed _ hdone => exact ⟨hround rfl hnone, by tauto⟩
  | @lost info v pts _ _ hgone =>
      exact ⟨hround (t := s.takeAwarded round v) rfl hnone, Or.inr (Or.inr ⟨v, rfl, hgone⟩)⟩
  | paid =>
      replace hnone : s.due r = none := hnone
      rw [hnone] at hdue
      cases hdue

/-- Where the payouts of a round end under `Step.PaysOut`, nobody waits any more. -/
lemma Step.PaysOut.drained {i : Step AccountId R} {r : ℕ} (hl : LedgerInv cfg a.state.ledger)
    (ht : Timely cfg a.state) (hqueue : QueueInv cfg a) (hi : i.PaysOut cfg a)
    (hstep : a.step cfg rm i = some a') (hdue : (a.state.due r).isSome) (hend : a.Ends cfg a' r) :
    r + cfg.rewardPaymentDelay = a.state.now ∧ a.state.authors r = ∅ := by
  obtain ⟨hs, -, -⟩ := Audit.step_eq_some hstep
  -- a step that leaves the payouts and the round alone ends nothing
  have hquiet : (∀ r, a'.state.due r = a.state.due r) → a'.state.now ≠ a.state.now := by
    intro hsame hnow
    rcases hend with hnone | ⟨-, hturn⟩
    · rw [← hsame r, hnone] at hdue
      cases hdue
    · exact hturn hnow
  cases i with
  | onInitialize n drained =>
      obtain ⟨⟨paid, s₁⟩, h₁, h₂⟩ := Option.map_eq_some_iff.mp hs
      replace h₂ : s₁ = a'.state := h₂
      subst h₂
      obtain ⟨snapshot, -, hpay⟩ := State.onInitialize_cases h₁
      rcases hend with hnone | ⟨-, hturn⟩
      · obtain ⟨hr, hcause⟩ := hpay.ended hdue hnone
        replace hr : r = a.state.payoutRound cfg := hr
        obtain ⟨hlate, -, hpoints⟩ := ht.due r hdue
        refine ⟨by rw [State.payoutRound] at hr; omega, ?_⟩
        rcases hcause with hzero | hdone | ⟨w, rfl, hgone⟩
        · rw [hr] at hpoints
          exact absurd hzero hpoints
        · rw [hr]
          exact hdone
        · -- who is drained is a candidate
          have hcand : (a.state.ledger.candidateInfo.get w).isSome := hi (hr ▸ hdue)
          replace hgone : a.state.ledger.candidateInfo.get w = none := hgone
          rw [hgone] at hcand
          cases hcand
      · exact absurd hpay.now hturn
  | newSession now newIndex validators hasKeys =>
      obtain ⟨⟨out, s₁⟩, h₁, h₂⟩ := Option.map_eq_some_iff.mp hs
      replace h₂ : s₁ = a'.state := h₂
      subst h₂
      have hturn := State.newSession_turned h₁
      split_ifs at hturn with hupdate
      · rcases hend with hnone | ⟨hround, -⟩
        · rcases hturn.due r with hsame | ⟨-, -, hsome⟩
          · rw [← hsame, hnone] at hdue
            cases hdue
          · rw [hnone] at hsome
            cases hsome
        · have hr : r = a.state.payoutRound cfg := by
            rw [State.payoutRound]
            omega
          -- the round had as many blocks as there were entries
          have hblocks : a.queued r ≤ a.blocks := by
            rw [hr]
            exact hi hupdate (hr ▸ hdue)
          have hleft := hqueue r hdue hround
          exact ⟨hround, Finset.card_eq_zero.mp (by omega)⟩
      · exact absurd hturn.2 (hquiet fun r => by rw [State.due, hturn.1, State.due])
  | noteAuthor author =>
      obtain h₂ := Option.some.inj hs
      exact absurd (by rw [← h₂]; rfl) (hquiet fun r => by rw [← h₂]; rfl)
  | _ =>
      have haside := State.step_aside hl rfl hs
      exact absurd haside.now (hquiet fun r => by rw [State.due, haside.rewards, State.due])

/-! ## Results -/

/-- **Everybody is paid.**  When the payouts of a round end, whoever had points when they began has been
paid exactly once, and the payment was made. -/
theorem payouts_complete {i : Step AccountId R} {r : ℕ} {v : AccountId}
    (h : AuditedIf cfg rm (fun a i => i.PaysOut cfg a) a) (hi : i.PaysOut cfg a)
    (hstep : a.step cfg rm i = some a') (hdue : (a.state.due r).isSome) (hend : a.Ends cfg a' r)
    (hv : v ∈ a.entitled r) :
    a'.paid.count (r, v) = 1 ∧ ∃ p ∈ a'.payments, p.round = r ∧ p.who = v ∧ p.Made := by
  have hl := h.reachable.inv.ledger
  have hinv := h.paidInv
  have hnext : AuditedIf cfg rm anyStep a' := .step (h.mono fun _ _ _ => trivial) trivial hstep
  obtain ⟨hround, hnone⟩ := hi.drained hl hinv.timely h.queueInv hstep hdue hend
  obtain ⟨-, hpaid, -⟩ := Audit.step_eq_some hstep
  have hbefore : (r, v) ∈ a.paid := by
    rcases hinv.owed r v hdue hround hv with howed | hbefore
    · have hmem := (Finset.mem_filter.mp (State.mem_creditors.mpr howed)).1
      rw [hnone] at hmem
      cases hmem
    · exact hbefore
  have hafter : (r, v) ∈ a'.paid := by
    rw [hpaid]
    exact List.mem_append_right _ hbefore
  refine ⟨List.count_eq_one_of_mem hnext.paidInv.nodup hafter, ?_⟩
  obtain ⟨p, hp, heq⟩ := List.mem_map.mp hafter
  obtain ⟨hr, hwho⟩ := Prod.mk.inj heq
  exact ⟨p, hp, hr, hwho, hnext.made p hp⟩

end Complete

/-- The payouts of round 1 of the small network.  Account 2 has authored two blocks and account 12 one, and
the second round has two blocks. -/
theorem payouts_complete_devnet :
    ∃ a a' : Audit ℕ Unit,
      AuditedIf devnet devnetRelays (fun a i => i.PaysOut devnet a) a ∧
      a.step devnet devnetRelays (.newSession 40 3 [] (fun _ => true)) = some a' ∧ a.Ends devnet a' 1 ∧
      12 ∈ a.entitled 1 ∧ a'.paid.count (1, 12) = 1 ∧
      (∃ p ∈ a'.payments, p.round = 1 ∧ p.who = 12 ∧ p.Made) ∧
      ∀ p ∈ a'.payments, p.before.ledger.currency.totalBalance 11 ≠ 0 := by
  obtain ⟨a, ha, hP⟩ := devnetAudit_exists (fun a i => i.PaysOut devnet a)
    [.noteAuthor 2, .noteAuthor 12, .noteAuthor 2, .newSession 20 2 [] (fun _ => true),
      .onInitialize 21 (some 12), .onInitialize 22 (some 2)]
    (P := fun a => decide ((a.state.due 1).isSome ∧ 12 ∈ a.entitled 1 ∧
        Step.PaysOut devnet a (.newSession 40 3 [] (fun _ => true))) &&
      (a.step devnet devnetRelays (.newSession 40 3 [] (fun _ => true))).any fun a' : Audit ℕ Unit =>
        decide (a.Ends devnet a' 1 ∧
          ∀ p ∈ a'.payments, p.before.ledger.currency.totalBalance 11 ≠ 0)) (by decide)
  simp only [Bool.and_eq_true, decide_eq_true_eq, Option.any_eq_true] at hP
  obtain ⟨⟨hdue, hv, hi⟩, a', hstep, hend, hbalance⟩ := hP
  obtain ⟨hcount, hmade⟩ := payouts_complete ha hi hstep hdue hend hv
  exact ⟨a, a', ha, hstep, hend, hv, hcount, hmade, hbalance⟩

/-- An account is left out: it is entitled and a candidate, and has not been paid when the payouts end. -/
def Audit.LeavesOut (cfg : Config AccountId) (a a' : Audit AccountId R) (r : ℕ) (v : AccountId) : Prop :=
  (a.state.due r).isSome ∧ a.Ends cfg a' r ∧ v ∈ a.entitled r ∧
    (a.state.ledger.candidateInfo.get v).isSome ∧ a'.paid.count (r, v) = 0

instance (cfg : Config AccountId) (a a' : Audit AccountId R) (r : ℕ) (v : AccountId) :
    Decidable (a.LeavesOut cfg a' r v) := inferInstanceAs (Decidable (_ ∧ _ ∧ _ ∧ _ ∧ _))

/-- **A round that is closed early.**  The controller of a stash changes at the start of round 2, but the
old controller still authors its first session, and so does account 12 or 2.  When the points of the old
controller come up, it is not a candidate, and the other one is never paid.  This is so in both orders: with
the change at stash 1, whose controller is 2, and at stash 11, whose controller is 12.

**A round that is too short.**  It has one block, and two accounts to pay. -/
theorem payouts_incomplete :
    (∃ a a' : Audit ℕ Unit, AuditedIf devnet devnetRelays anyStep a ∧
      a.step devnet devnetRelays (.onInitialize 41 (some 2)) = some a' ∧ a.LeavesOut devnet a' 2 12) ∧
    (∃ a a' : Audit ℕ Unit, AuditedIf devnet devnetRelays anyStep a ∧
      a.step devnet devnetRelays (.onInitialize 41 (some 12)) = some a' ∧ a.LeavesOut devnet a' 2 2) ∧
    ∃ a a' : Audit ℕ Unit, AuditedIf devnet devnetRelays anyStep a ∧
      a.step devnet devnetRelays (.newSession 40 3 [] (fun _ => true)) = some a' ∧
      a.LeavesOut devnet a' 1 12 := by
  have hleft : ∀ (steps : List (Step ℕ Unit)) (i : Step ℕ Unit) (r v : ℕ),
      ((devnetAudit anyStep steps).any fun a => (a.step devnet devnetRelays i).any fun a' =>
        decide (a.LeavesOut devnet a' r v)) = true →
      ∃ a a' : Audit ℕ Unit, AuditedIf devnet devnetRelays anyStep a ∧
        a.step devnet devnetRelays i = some a' ∧ a.LeavesOut devnet a' r v := by
    intro steps i r v hrun
    obtain ⟨a, ha, hP⟩ := devnetAudit_exists anyStep steps hrun
    simp only [decide_eq_true_eq, Option.any_eq_true] at hP
    obtain ⟨a', hstep, hout⟩ := hP
    exact ⟨a, a', ha, hstep, hout⟩
  refine ⟨hleft [.call (.signed 1) (.setController 4), .newSession 20 2 [] (fun _ => true),
      .noteAuthor 2, .noteAuthor 12, .newSession 40 3 [] (fun _ => true)] _ _ _ (by decide),
    hleft [.call (.signed 11) (.setController 4), .newSession 20 2 [] (fun _ => true),
      .noteAuthor 2, .noteAuthor 12, .newSession 40 3 [] (fun _ => true)] _ _ _ (by decide),
    hleft [.noteAuthor 2, .noteAuthor 12, .newSession 20 2 [] (fun _ => true),
      .onInitialize 21 (some 2)] _ _ _ (by decide)⟩

end BifrostNode.Staking
