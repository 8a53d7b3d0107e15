import BifrostNode.Staking.PastRewards
import BifrostNode.Staking.Splits

/-!
# What a round mints

`Ledger.payoutMints` lists what a payout mints, payment by payment: a payment to an account that is gone
or to a nominator that is leaving mints nothing.  `AwardedTokens` gains exactly these amounts.

**Accounts.**  `Minting` keeps the accounts of a run: the issuance of each round, what has been minted for
it, and in how many payments.

**Bound.**  The parts of the validators of a round are at most one together, so what the round mints exceeds
its issuance by at most one half for each payment made (`rewards_bounded`).
-/

namespace BifrostNode.Staking

open Transition

variable {AccountId R : Type}

/-! ## What is minted -/

section Mints

variable [LinearOrder AccountId] {cfg : Config AccountId} {l l' : Ledger AccountId}
  {m : CandidateMetadata AccountId} {c n : AccountId}

/-- What `mint_reward` mints. -/
def Ledger.mints (l : Ledger AccountId) (amount : ℕ) (dest : AccountId) : List ℕ :=
  if (l.currency.depositIntoExisting dest amount).isSome then [amount] else []

/-- What `handle_validator_reward_payout` mints. -/
def Ledger.validatorMints (l : Ledger AccountId) (controller stash : AccountId) (reward : ℕ) :
    List ℕ :=
  if (l.candidateInfo.get controller).isSome then l.mints reward stash else []

/-- What `handle_nominator_reward_payout` mints. -/
def Ledger.nominatorMints (l : Ledger AccountId) (controller nominator : AccountId) (reward : ℕ) :
    List ℕ :=
  match l.nominatorState.get nominator with
  | none => []
  | some st =>
      if st.isActive ∧ ¬ st.isRevoking controller ∧ ¬ st.isDecreasing controller then
        l.mints reward nominator
      else []

/-- What the loop over the nominators mints. -/
def Ledger.shareMints (cfg : Config AccountId) (validator : AccountId) :
    Ledger AccountId → List (AccountId × ℕ) → List ℕ
  | _, [] => []
  | l, share :: shares =>
      if share.2 = 0 then Ledger.shareMints cfg validator l shares
      else l.nominatorMints validator share.1 share.2 ++ Ledger.shareMints cfg validator
        (l.handleNominatorRewardPayout cfg validator share.1 share.2) shares

/-- What the payout of one validator mints, one entry for each payment made. -/
def Ledger.payoutMints (cfg : Config AccountId) (l : Ledger AccountId) (validator stash : AccountId)
    (shares : Shares AccountId) : List ℕ :=
  l.validatorMints validator stash shares.validator ++
    match (l.handleValidatorRewardPayout validator stash shares.validator).toOption with
    | none => []
    | some l => Ledger.shareMints cfg validator l shares.nominators

lemma Ledger.mints_sublist (l : Ledger AccountId) (amount : ℕ) (dest : AccountId) :
    (l.mints amount dest).Sublist [amount] := by
  rw [Ledger.mints]
  split_ifs
  · exact List.Sublist.refl _
  · exact List.nil_sublist _

/-- `AwardedTokens` counts what is minted. -/
lemma Ledger.mintReward_awarded (l : Ledger AccountId) (amount : ℕ) (dest : AccountId) :
    (l.mintReward amount dest).awardedTokens = l.awardedTokens + (l.mints amount dest).sum := by
  rw [Ledger.mintReward, Ledger.mints]
  cases l.currency.depositIntoExisting dest amount with
  | none => rfl
  | some currency => simp

lemma Ledger.updateActive_awarded (l : Ledger AccountId) (c : AccountId) (v : ℕ) :
    (l.updateActive c v).awardedTokens = l.awardedTokens := by rw [l.updateActive_eq]

lemma CandidateMetadata.resetTopData_awarded (l : Ledger AccountId)
    (m : CandidateMetadata AccountId) (c : AccountId) (top : Nominations AccountId) :
    (m.resetTopData cfg l c top).2.awardedTokens = l.awardedTokens := by
  rw [resetTopData]
  split_ifs
  · exact l.updateActive_awarded c _
  · rfl

lemma CandidateMetadata.increaseTopNomination_awarded (more : ℕ) :
    Returns (fun out => out.2.2.awardedTokens = l.awardedTokens)
      (increaseTopNomination cfg l m c n more) :=
  .bind fun _ => .bind fun _ => .pure (resetTopData_awarded l m c _)

lemma CandidateMetadata.increaseBottomNomination_awarded (bond more : ℕ) :
    Returns (fun out => out.2.2.awardedTokens = l.awardedTokens)
      (increaseBottomNomination cfg l m c n bond more) := by
  refine .bind fun bottom => ?_
  extract_lets rest
  have hrest : ∀ out, out.2.2.2.awardedTokens = l.awardedTokens →
      Returns (fun out => out.2.2.awardedTokens = l.awardedTokens) (rest out) := by
    rintro ⟨b, bottom', m₁, l₁⟩ h
    exact .pure h
  clear_value rest
  refine .ite (.bind fun x => ?_) (.bind fun _ => .jump (hrest _ rfl))
  extract_lets y rest₁
  have hrest₁ : ∀ out, Returns (fun out => out.2.2.awardedTokens = l.awardedTokens)
      (rest₁ out) := by
    rintro ⟨top', bottom'⟩
    exact .jump (hrest _ (resetTopData_awarded l m c _))
  clear_value rest₁
  exact .bind fun top => .ite (.bind fun _ => .jump (hrest₁ _)) (.jump (hrest₁ _))

lemma CandidateMetadata.increaseNomination_awarded (bond more : ℕ) :
    Returns (fun out => out.2.2.awardedTokens = l.awardedTokens)
      (increaseNomination cfg l m c n bond more) :=
  .ite (increaseTopNomination_awarded more)
    (.ite (topElseBottom_returns (increaseTopNomination_awarded more)
      (increaseBottomNomination_awarded bond more)) (increaseBottomNomination_awarded bond more))

/-- A reward that is compounded is not minted again. -/
lemma Nominator.increaseNomination_awarded (st : Nominator AccountId) (c : AccountId) (amount : ℕ) :
    (st.increaseNomination cfg l c amount).2.awardedTokens = l.awardedTokens := by
  rw [increaseNomination]
  cases st.nominations.get c with
  | none => rfl
  | some before =>
      cases l.candidateInfo.get c with
      | none => rfl
      | some m =>
          simp only [setNomination_id]
          cases l.currency.reserve st.id amount with
          | error e => rfl
          | ok currency =>
              cases hinc : m.increaseNomination cfg { l with currency := currency } c st.id before
                  amount with
              | error e => simp only [hinc]
              | ok out =>
                  obtain ⟨b, m', l₁⟩ := out
                  have hframe := CandidateMetadata.increaseNomination_awarded _ _ _ hinc
                  simp only [hinc]
                  exact (l₁.updateActive_awarded c _).trans hframe

lemma Ledger.handleNominatorRewardPayout_awarded (l : Ledger AccountId) (c n : AccountId)
    (reward : ℕ) :
    (l.handleNominatorRewardPayout cfg c n reward).awardedTokens =
      l.awardedTokens + (l.nominatorMints c n reward).sum := by
  rw [Ledger.handleNominatorRewardPayout, Ledger.nominatorMints]
  cases l.nominatorState.get n with
  | none => rfl
  | some st =>
      simp only
      split_ifs with hactive
      · rw [← l.mintReward_awarded reward n]
        cases (st.incrementAwardedTokens c reward).rewardDst with
        | account => rfl
        | staked =>
            have hframe : ((st.incrementAwardedTokens c reward).increaseNomination cfg
                (l.mintReward reward n) c reward).2.awardedTokens =
                  (l.mintReward reward n).awardedTokens :=
              Nominator.increaseNomination_awarded _ c reward
            simp only
            split <;> rename_i heq <;> rw [heq] at hframe <;> exact hframe
      · rfl

lemma Ledger.nominatorMints_sublist (l : Ledger AccountId) (c n : AccountId) (reward : ℕ) :
    (l.nominatorMints c n reward).Sublist [reward] := by
  rw [Ledger.nominatorMints]
  cases l.nominatorState.get n with
  | none => exact List.nil_sublist _
  | some st =>
      simp only
      split_ifs
      · exact l.mints_sublist reward n
      · exact List.nil_sublist _

/-- The payments to nominators are among their shares, and are counted. -/
lemma Ledger.shareMints_spec (c : AccountId) :
    ∀ (shares : List (AccountId × ℕ)) (l : Ledger AccountId),
      (Ledger.shareMints cfg c l shares).Sublist (shares.map Prod.snd) ∧
      (shares.foldl (fun l share => if share.2 = 0 then l
        else l.handleNominatorRewardPayout cfg c share.1 share.2) l).awardedTokens =
          l.awardedTokens + (Ledger.shareMints cfg c l shares).sum := by
  intro shares
  induction shares with
  | nil => exact fun l => ⟨List.Sublist.refl _, rfl⟩
  | cons share shares ih =>
      intro l
      rw [Ledger.shareMints, List.foldl_cons, List.map_cons]
      split_ifs with hzero
      · exact ⟨(ih l).1.cons _, (ih l).2⟩
      · obtain ⟨hsub, hsum⟩ := ih (l.handleNominatorRewardPayout cfg c share.1 share.2)
        refine ⟨(l.nominatorMints_sublist c share.1 share.2).append hsub, ?_⟩
        rw [hsum, Ledger.handleNominatorRewardPayout_awarded, List.sum_append, Nat.add_assoc]

/-- **The payments of a payout** are among the amounts that it assigns, and are counted. -/
lemma Ledger.payShares_mints {stash : AccountId} {shares : Shares AccountId}
    (h : l.payShares cfg c stash shares = some l') :
    (l.payoutMints cfg c stash shares).Sublist shares.amounts ∧
      l'.awardedTokens = l.awardedTokens + (l.payoutMints cfg c stash shares).sum := by
  obtain ⟨l₁, h₁, rfl⟩ := Option.map_eq_some_iff.mp h
  obtain ⟨hsub, hsum⟩ := @Ledger.shareMints_spec _ _ cfg c shares.nominators l₁
  have hvalidator : (l.validatorMints c stash shares.validator).Sublist [shares.validator] ∧
      l₁.awardedTokens = l.awardedTokens + (l.validatorMints c stash shares.validator).sum := by
    replace h₁ := toOption_eq_some.mp h₁
    rw [Ledger.handleValidatorRewardPayout] at h₁
    rw [Ledger.validatorMints]
    cases hc : l.candidateInfo.get c with
    | none =>
        rw [hc] at h₁
        obtain rfl := Except.ok.inj h₁
        exact ⟨List.nil_sublist _, rfl⟩
    | some m =>
        rw [hc] at h₁
        refine ⟨l.mints_sublist _ _, ?_⟩
        rw [Option.isSome_some, if_pos rfl, ← l.mintReward_awarded]
        dsimp only at h₁
        cases hdst : (m.incrementAwardedTokens shares.validator).rewardDst with
        | account =>
            rw [hdst] at h₁
            obtain rfl := Except.ok.inj h₁
            rfl
        | staked =>
            simp only [hdst, CandidateMetadata.bondMore, bind_eq_ok, pure_eq_ok, Prod.exists,
              Prod.mk.injEq] at h₁
            obtain ⟨m', l₂, ⟨currency, -, -, rfl⟩, rfl⟩ := h₁
            exact Ledger.updateActive_awarded _ c _
  rw [Ledger.payoutMints, h₁]
  refine ⟨hvalidator.1.append hsub, ?_⟩
  rw [hsum, hvalidator.2, List.sum_append, Nat.add_assoc]

end Mints

/-! ## The accounts of a run -/

section Accounts

variable [LinearOrder AccountId] {cfg : Config AccountId} {rm : RelayManager AccountId R}
  {s s' : State AccountId R}

/-- What a step mints, one entry for each payment made. -/
def State.mints (cfg : Config AccountId) (s : State AccountId R) (i : Step AccountId R) : List ℕ :=
  match s.payment cfg i with
  | none => []
  | some (r, v) =>
      match s.shares r v, s.ledger.candidateInfo.get v with
      | some shares, some m => s.ledger.payoutMints cfg v m.stash shares
      | _, _ => []

/-- The state with the accounts of each round: the issuance of its payout, what `AwardedTokens` has
gained by its payments, and how many payments were made. -/
structure Minting (AccountId R : Type) where
  state : State AccountId R
  issued : ℕ → ℕ
  minted : ℕ → ℕ
  payments : ℕ → ℕ

namespace Minting

/-- The issuance of the payouts that are due. -/
def issuedBy (s : State AccountId R) (issued : ℕ → ℕ) (r : ℕ) : ℕ :=
  ((s.due r).map DelayedPayout.roundIssuance).getD (issued r)

/-- The accounts of a genesis state. -/
def start (s : State AccountId R) : Minting AccountId R := ⟨s, fun _ => 0, fun _ => 0, fun _ => 0⟩

/-- A step of the state, booked. -/
def step (cfg : Config AccountId) (rm : RelayManager AccountId R) (a : Minting AccountId R)
    (i : Step AccountId R) : Option (Minting AccountId R) :=
  (a.state.step cfg rm i).map fun s =>
    match a.state.payment cfg i with
    | none => { a with state := s, issued := issuedBy s a.issued }
    | some (r, _) =>
        { state := s
          issued := issuedBy s a.issued
          minted := Function.update a.minted r
            (a.minted r + (s.ledger.awardedTokens - a.state.ledger.awardedTokens))
          payments := Function.update a.payments r
            (a.payments r + (a.state.mints cfg i).length) }

end Minting

/-- The accounts of every run. -/
def Minted (cfg : Config AccountId) (rm : RelayManager AccountId R) (a : Minting AccountId R) :
    Prop :=
  Reachable (fun a => ∃ s, IsGenesis cfg rm s ∧ a = .start s) (Minting.step cfg rm) anyStep a

/-- Accounts do not change what is reachable. -/
lemma Minted.reachable {a : Minting AccountId R} (h : Minted cfg rm a) :
    ReachableIf cfg rm anyStep a.state := by
  refine Reachable.invariant (P := fun a => ReachableIf cfg rm anyStep a.state) ?_ ?_ h
  · rintro a ⟨s, hs, rfl⟩
    exact .init hs
  · intro a i a' ha _ hstep
    obtain ⟨s, hs, hbook⟩ := Option.map_eq_some_iff.mp hstep
    have hstate : a'.state = s := by
      rw [← hbook]
      cases a.state.payment cfg i <;> rfl
    rw [hstate]
    exact .step ha trivial hs

/-! ### One payment -/

/-- **A payment**, with what it takes out of the round and what it mints. -/
structure Paying (cfg : Config AccountId) (s : State AccountId R) (r : ℕ) (v : AccountId)
    (mints : List ℕ) (s' : State AccountId R) (info : DelayedPayout) (pts : ℕ)
    (commission : Perbill) : Prop where
  due : s.due r = some info
  awarded : s.rewards.awardedPts.get (r, v) = some pts
  among : mints.Sublist (Shares.of commission info pts (s.rewards.points.getD r 0)
    (s.snapshot r v)).amounts
  minted : s'.ledger.awardedTokens = s.ledger.awardedTokens + mints.sum
  taken : s'.rewards.awardedPts = s.rewards.awardedPts.remove (r, v)
  points : s'.rewards.points = s.rewards.points
  payouts : s'.rewards.delayedPayouts = s.rewards.delayedPayouts
  now : s'.now = s.now

lemma State.step_pays {i : Step AccountId R} {r : ℕ} {v : AccountId}
    (hstep : s.step cfg rm i = some s') (hpay : s.payment cfg i = some (r, v)) :
    (∃ n, i = .onInitialize n (some v)) ∧ r = s.payoutRound cfg ∧
      ∃ info pts commission, Paying cfg s r v (s.mints cfg i) s' info pts commission := by
  cases i with
  | onInitialize n drained =>
      have hpayment := hpay
      obtain ⟨⟨paid, s₁⟩, h₁, h₂⟩ := Option.map_eq_some_iff.mp hstep
      replace h₂ : s₁ = s' := h₂
      subst h₂
      simp only [State.payment, h₁, Option.bind_some, Option.map_eq_some_iff, Prod.mk.injEq] at hpay
      obtain ⟨⟨w, total⟩, rfl, rfl, rfl⟩ := hpay
      obtain ⟨snapshot, -, hcases⟩ := State.onInitialize_cases h₁
      cases hcases with
      | @paid info _ pts _ m l hdue hpts hm hl =>
          refine ⟨⟨n, rfl⟩, rfl, info, pts, m.commission, ?_⟩
          rw [Ledger.payValidator_eq] at hl
          obtain ⟨l', hl', heq⟩ := Option.map_eq_some_iff.mp hl
          obtain ⟨-, rfl⟩ := Prod.mk.inj heq
          have hdue' : s.due (s.payoutRound cfg) = some info := hdue
          have hpts' : s.rewards.awardedPts.get (s.payoutRound cfg, w) = some pts := hpts
          have hm' : s.ledger.candidateInfo.get w = some m := hm
          have hshares : s.shares (s.payoutRound cfg) w = some (.of m.commission info pts
              (s.rewards.points.getD (s.payoutRound cfg) 0)
              (s.snapshot (s.payoutRound cfg) w)) := by
            rw [State.shares_eq hdue' hm', State.pointsOf, StorageMap.getD, hpts']
            rfl
          have hmints : s.mints cfg (.onInitialize n (some w)) =
              s.ledger.payoutMints cfg w m.stash (.of m.commission info pts
                (s.rewards.points.getD (s.payoutRound cfg) 0)
                (s.snapshot (s.payoutRound cfg) w)) := by
            simp only [State.mints, hpayment, hshares, hm']
          obtain ⟨hsub, hsum⟩ := Ledger.payShares_mints hl'
          rw [hmints]
          exact ⟨hdue', hpts', hsub, hsum, rfl, rfl, rfl, rfl⟩
  | _ => cases hpay

/-- What a payment mints, in parts of the issuance. -/
lemma Paying.mints_le {r : ℕ} {v : AccountId} {mints : List ℕ} {info : DelayedPayout} {pts : ℕ}
    {commission : Perbill} (h : Paying cfg s r v mints s' info pts commission)
    (hinfo : info.totalStakingReward = info.roundIssuance) (hs : (s.snapshot r v).Backed) :
    2 * 1000000000 * mints.sum ≤ 2 * ((Perbill.fromRational pts (s.rewards.points.getD r 0)).parts *
      info.roundIssuance) + 1000000000 * mints.length := by
  by_cases hnil : mints = []
  · rw [hnil]
    simp
  have hpaid := Shares.sum_paid_le hinfo.ge hs hnil h.among
  have htotal : (Shares.of commission info pts (s.rewards.points.getD r 0) (s.snapshot r v)).total =
      (Perbill.fromRational pts (s.rewards.points.getD r 0)).mul info.roundIssuance := by
    rw [Shares.of, hinfo]
    split_ifs <;> rfl
  have hnear := (Perbill.fromRational pts (s.rewards.points.getD r 0)).nearest_mul
    info.roundIssuance
  have hlength := List.length_pos_of_ne_nil hnil
  rw [htotal] at hpaid
  rw [Rounding.Nearest] at hnear
  omega

/-! ### One round -/

/-- The points of a round that have not been paid. -/
def State.remaining (s : State AccountId R) (r : ℕ) : ℕ :=
  s.rewards.awardedPts.sum fun k pts => if k.1 = r then pts else 0

/-- Points that follow a controller do not grow. -/
lemma sum_movePts_le (now r : ℕ) :
    ∀ (cs : List (DelayedControllerSet AccountId)) (pts : StorageMap (ℕ × AccountId) ℕ),
      (cs.foldl (movePts now) pts).sum (fun k pts => if k.1 = r then pts else 0) ≤
        pts.sum fun k pts => if k.1 = r then pts else 0 := by
  have htake : ∀ (m : StorageMap (ℕ × AccountId) ℕ) (round : ℕ) (old new : AccountId),
      ((m.remove (round, old)).insert (round, new) (m.getD (round, old) 0)).sum
        (fun k pts => if k.1 = r then pts else 0) ≤
          m.sum fun k pts => if k.1 = r then pts else 0 := by
    intro m round old new
    refine StorageMap.sum_redirect_le m _ ?_ fun v => ?_
    · exact ite_self 0
    · rfl
  intro cs
  induction cs with
  | nil => exact fun _ => le_rfl
  | cons c cs ih =>
      intro pts
      rw [List.foldl_cons]
      refine (ih _).trans ?_
      rw [movePts]
      exact (htake _ _ _ _).trans (htake _ _ _ _)

/-- **The accounts of a round.**  Before its payout is prepared, nothing is paid.  What has been minted is
accounted for by the parts of the validators that have been paid, and these leave room for the parts of
those that have not. -/
structure Booked (cfg : Config AccountId) (a : Minting AccountId R) (r : ℕ) : Prop where
  early : a.state.now < r + cfg.rewardPaymentDelay → a.minted r = 0 ∧ a.payments r = 0 ∧
    a.state.remaining r ≤ a.state.rewards.points.getD r 0
  parts : ∃ parts, parts ≤ 1000000000 ∧
    2 * 1000000000 * a.minted r ≤ 2 * (parts * a.issued r) + 1000000000 * a.payments r ∧
    ∀ info, a.state.due r = some info → info.totalStakingReward = info.roundIssuance ∧
      info.roundIssuance = a.issued r ∧ ∃ credited,
        parts * a.state.rewards.points.getD r 0 ≤ credited * 1000000000 ∧
        credited + a.state.remaining r ≤ a.state.rewards.points.getD r 0

variable {a a' : Minting AccountId R} {r : ℕ}

omit [LinearOrder AccountId] in
/-- The issuance of a round whose payout is not new. -/
lemma Booked.issuedBy_eq (h : Booked cfg a r)
    (hdue : ∀ info, s'.due r = some info → a.state.due r = some info) :
    Minting.issuedBy s' a.issued r = a.issued r := by
  rw [Minting.issuedBy]
  cases hnew : s'.due r with
  | none => rfl
  | some info =>
      obtain ⟨parts, -, -, hinfo⟩ := h.parts
      exact (hinfo info (hdue info hnew)).2.1

omit [LinearOrder AccountId] in
/-- A step that pays nothing for the round. -/
lemma Booked.less (h : Booked cfg a r) (hnow : a.state.now ≤ a'.state.now)
    (hissued : a'.issued = Minting.issuedBy a'.state a.issued) (hminted : a'.minted r = a.minted r)
    (hpayments : a'.payments r = a.payments r)
    (hdue : ∀ info, a'.state.due r = some info → a.state.due r = some info ∧
      a'.state.rewards.points.getD r 0 = a.state.rewards.points.getD r 0)
    (hsum : a'.state.now < r + cfg.rewardPaymentDelay ∨ (a'.state.due r).isSome →
      a'.state.remaining r + a.state.rewards.points.getD r 0 ≤
        a.state.remaining r + a'.state.rewards.points.getD r 0) : Booked cfg a' r where
  early hearly := by
    obtain ⟨hm, hp, hle⟩ := h.early (lt_of_le_of_lt hnow hearly)
    have hleft := hsum (Or.inl hearly)
    exact ⟨hminted.trans hm, hpayments.trans hp, by omega⟩
  parts := by
    obtain ⟨parts, hparts, hbound, hinfo⟩ := h.parts
    have hsame : a'.issued r = a.issued r := by
      rw [hissued]
      exact h.issuedBy_eq fun info hi => (hdue info hi).1
    refine ⟨parts, hparts, ?_, fun info hi => ?_⟩
    · rw [hminted, hsame, hpayments]
      exact hbound
    · obtain ⟨hold, hpoints⟩ := hdue info hi
      obtain ⟨htotal, hissuance, credited, hcredited, hroom⟩ := hinfo info hold
      have hleft := hsum (Or.inr (Option.isSome_iff_exists.mpr ⟨info, hi⟩))
      rw [hpoints] at hleft ⊢
      exact ⟨htotal, hissuance.trans hsame.symm, credited, hcredited, by omega⟩

omit [LinearOrder AccountId] in
/-- The payout of the round is prepared. -/
lemma Booked.prepared (h : Booked cfg a r) (hearly : a.state.now < r + cfg.rewardPaymentDelay)
    (hround : r + cfg.rewardPaymentDelay = a'.state.now)
    (hissued : a'.issued = Minting.issuedBy a'.state a.issued) (hminted : a'.minted r = a.minted r)
    (hpayments : a'.payments r = a.payments r)
    (hdue : ∀ info, a'.state.due r = some info → info.totalStakingReward = info.roundIssuance)
    (hpoints : a'.state.rewards.points.getD r 0 = a.state.rewards.points.getD r 0)
    (hsum : a'.state.remaining r ≤ a.state.remaining r) : Booked cfg a' r where
  early hlate := by omega
  parts := by
    obtain ⟨hm, hp, hle⟩ := h.early hearly
    refine ⟨0, Nat.zero_le _, ?_, fun info hi => ⟨hdue info hi, ?_, 0, ?_, ?_⟩⟩
    · rw [hminted, hm]
      omega
    · rw [hissued, Minting.issuedBy, hi]
      rfl
    · simp
    · rw [hpoints]
      omega

/-- **A payment of the round** takes its part out of what is left for the validators still to be paid. -/
lemma Booked.paid {v : AccountId} {mints : List ℕ} {info : DelayedPayout} {pts : ℕ}
    {commission : Perbill} (h : Booked cfg a r) (ht : Timely cfg a.state)
    (hbacked : (a.state.snapshot r v).Backed)
    (hpay : Paying cfg a.state r v mints a'.state info pts commission)
    (hissued : a'.issued = Minting.issuedBy a'.state a.issued)
    (hminted : a'.minted r = a.minted r + mints.sum)
    (hpayments : a'.payments r = a.payments r + mints.length) : Booked cfg a' r where
  early hlate := by
    have hdue := (ht.due r (Option.isSome_iff_exists.mpr ⟨info, hpay.due⟩)).1
    have hnow := hpay.now
    omega
  parts := by
    obtain ⟨parts, hparts, hbound, hinfo⟩ := h.parts
    obtain ⟨htotal, hissuance, credited, hcredited, hroom⟩ := hinfo info hpay.due
    have hpoints := (ht.due r (Option.isSome_iff_exists.mpr ⟨info, hpay.due⟩)).2.2
    have hmints := hpay.mints_le htotal hbacked
    have hsame : a'.issued r = a.issued r := by
      rw [hissued]
      refine h.issuedBy_eq fun info hi => ?_
      rwa [State.due, hpay.payouts] at hi
    have htaken : a'.state.remaining r + pts = a.state.remaining r := by
      have hsum := StorageMap.sum_remove_of_some
        (fun (k : ℕ × AccountId) pts => if k.1 = r then pts else 0) hpay.awarded
      rw [if_pos rfl] at hsum
      rw [State.remaining, hpay.taken, State.remaining]
      exact hsum
    rw [hissuance] at hmints
    generalize htp : a.state.rewards.points.getD r 0 = total at *
    have hpart : (Perbill.fromRational pts total).parts * total ≤ pts * 1000000000 :=
      Perbill.parts_fromRational_mul_le (by omega)
    generalize (Perbill.fromRational pts total).parts = part at *
    have hcredit : (parts + part) * total ≤ (credited + pts) * 1000000000 := by
      rw [Nat.add_mul, Nat.add_mul]
      omega
    refine ⟨parts + part, ?_, ?_, fun info' hi => ?_⟩
    · have hwhole : (parts + part) * total ≤ 1000000000 * total := by omega
      exact Nat.le_of_mul_le_mul_right hwhole (Nat.pos_of_ne_zero hpoints)
    · rw [hminted, hsame, hpayments, Nat.add_mul]
      omega
    · rw [State.due, hpay.payouts] at hi
      obtain ⟨htotal', hissuance', -⟩ := hinfo info' hi
      rw [hpay.points, htp]
      exact ⟨htotal', hissuance'.trans hsame.symm, credited + pts, hcredit, by omega⟩

/-- Points that are taken out do not remain. -/
lemma State.remaining_remove_le (s : State AccountId R) (k : ℕ × AccountId) (r : ℕ) :
    (s.rewards.awardedPts.remove k).sum (fun k pts => if k.1 = r then pts else 0) ≤
      s.remaining r := by
  rw [State.remaining]
  cases hk : s.rewards.awardedPts.get k with
  | none => rw [StorageMap.remove_of_get_none hk]
  | some pts =>
      have hsum := StorageMap.sum_remove_of_some
        (fun (k : ℕ × AccountId) pts => if k.1 = r then pts else 0) hk
      omega

omit [LinearOrder AccountId] in
/-- A step that leaves points and payouts alone, up to entries that are taken out. -/
lemma Booked.quiet (h : Booked cfg a r) (hnow : a'.state.now = a.state.now)
    (hissued : a'.issued = Minting.issuedBy a'.state a.issued) (hminted : a'.minted r = a.minted r)
    (hpayments : a'.payments r = a.payments r) (hdue : a'.state.due r = a.state.due r)
    (hpoints : a'.state.rewards.points.getD r 0 = a.state.rewards.points.getD r 0)
    (hsum : a'.state.remaining r ≤ a.state.remaining r) : Booked cfg a' r := by
  refine h.less hnow.ge hissued hminted hpayments (fun info hi => ⟨hdue ▸ hi, hpoints⟩) fun _ => ?_
  rw [hpoints]
  exact Nat.add_le_add_right hsum _

omit [LinearOrder AccountId] in
/-- Closing a payout keeps the accounts of every round. -/
lemma Booked.closed {q : ℕ} (h : Booked cfg a r) (ht : Timely cfg a.state)
    (hnow : a'.state.now = a.state.now) (hq : (a.state.due q).isSome)
    (hissued : a'.issued = Minting.issuedBy a'.state a.issued) (hminted : a'.minted r = a.minted r)
    (hpayments : a'.payments r = a.payments r)
    (hdue : a'.state.rewards.delayedPayouts = a.state.rewards.delayedPayouts.remove q)
    (hpoints : a'.state.rewards.points = a.state.rewards.points.remove q)
    (hsum : a'.state.remaining r ≤ a.state.remaining r) : Booked cfg a' r := by
  by_cases hr : r = q
  · subst hr
    have hnone : a'.state.due r = none := by
      rw [State.due, hdue, StorageMap.get_remove_self]
    have hlate := (ht.due r hq).1
    refine h.less hnow.ge hissued hminted hpayments (fun info hi => ?_) fun hor => ?_
    · rw [hnone] at hi
      cases hi
    · rcases hor with hearly | hsome
      · omega
      · rw [hnone] at hsome
        cases hsome
  · refine h.quiet hnow hissued hminted hpayments ?_ ?_ hsum
    · rw [State.due, hdue, StorageMap.get_remove_of_ne _ hr, State.due]
    · rw [hpoints, StorageMap.getD, StorageMap.get_remove_of_ne _ hr, StorageMap.getD]

/-- The author of a block gets its points. -/
lemma Booked.noted (h : Booked cfg a r) (ht : Timely cfg a.state) (author : AccountId)
    (hstate : a'.state = a.state.noteAuthor author)
    (hissued : a'.issued = Minting.issuedBy a'.state a.issued) (hminted : a'.minted r = a.minted r)
    (hpayments : a'.payments r = a.payments r) : Booked cfg a' r := by
  have hnow : a'.state.now = a.state.now := by rw [hstate]; rfl
  have hdue : a'.state.due r = a.state.due r := by rw [hstate]; rfl
  have hpoints : a'.state.rewards.points.getD r 0 =
      a.state.rewards.points.getD r 0 + if r = a.state.now then 5 else 0 := by
    rw [hstate]
    simp only [State.noteAuthor, StorageMap.getD, StorageMap.get_insert]
    split_ifs with hr
    · rw [hr, Option.getD_some]
    · rfl
  have hsum : a'.state.remaining r = a.state.remaining r + if r = a.state.now then 5 else 0 := by
    rw [hstate]
    simp only [State.remaining, State.noteAuthor]
    cases hold : a.state.rewards.awardedPts.get (a.state.now, author) with
    | none =>
        rw [StorageMap.sum_insert_of_none _ _ hold, StorageMap.getD, hold]
        simp only [Option.getD_none, Nat.zero_add, eq_comm]
    | some pts =>
        have hover := StorageMap.sum_insert_of_some (pts + 5)
          (fun (k : ℕ × AccountId) pts => if k.1 = r then pts else 0) hold
        rw [StorageMap.getD, hold, Option.getD_some]
        simp only [eq_comm (a := r)]
        split_ifs at hover ⊢ <;> omega
  refine h.less hnow.ge hissued hminted hpayments (fun info hi => ?_) fun _ => ?_
  · rw [hdue] at hi
    refine ⟨hi, ?_⟩
    have hpast := (ht.due r (Option.isSome_iff_exists.mpr ⟨info, hi⟩)).2.1
    rw [hpoints, if_neg hpast.ne, Nat.add_zero]
  · rw [hpoints, hsum]
    omega

/-- The end of a round keeps the accounts of every round. -/
lemma Booked.ended (h : Booked cfg a r) (hend : Ended cfg a.state a'.state)
    (hissued : a'.issued = Minting.issuedBy a'.state a.issued) (hminted : a'.minted r = a.minted r)
    (hpayments : a'.payments r = a.payments r) : Booked cfg a' r := by
  have hnow := hend.now
  have hpoints : a'.state.rewards.points.getD r 0 = a.state.rewards.points.getD r 0 := by
    rw [hend.points]
  have hsum : a'.state.remaining r ≤ a.state.remaining r := by
    rw [State.remaining, hend.moved, State.remaining]
    exact sum_movePts_le _ _ _ _
  rcases State.prepareStakingPayouts_terms cfg a.state (a.state.now + 1) r with
    ⟨hsame, -⟩ | ⟨hround, hinfo⟩
  · refine h.less (by omega) hissued hminted hpayments (fun info hi => ⟨?_, hpoints⟩) fun _ => ?_
    · rw [← hsame, ← hend.prepared]
      exact hi
    · rw [hpoints]
      exact Nat.add_le_add_right hsum _
  · refine h.prepared (by omega) (by omega) hissued hminted hpayments (fun info hi => ?_) hpoints hsum
    rw [hend.prepared] at hi
    obtain ⟨hissuance, htotal⟩ := hinfo info hi
    exact htotal.trans hissuance.symm

/-- **Step lemma.**  Every step keeps the accounts of every round. -/
lemma Booked.step {i : Step AccountId R} (hs : StateInv cfg a.state) (ht : Timely cfg a.state)
    (hbacked : a.state.Snaps ValidatorSnapshot.Backed) (h : Booked cfg a r)
    (hstep : a.step cfg rm i = some a') : Booked cfg a' r := by
  obtain ⟨s', hstate, hbook⟩ := Option.map_eq_some_iff.mp hstep
  cases hpay : a.state.payment cfg i with
  | some p =>
      obtain ⟨q, v⟩ := p
      simp only [hpay] at hbook
      subst hbook
      obtain ⟨⟨n, rfl⟩, rfl, info, pts, commission, hpaying⟩ := State.step_pays hstate hpay
      by_cases hr : r = a.state.payoutRound cfg
      · subst hr
        refine h.paid ht (hbacked.snapshot .default _ v) hpaying rfl ?_ ?_
        · simp only [Function.update_self, hpaying.minted, Nat.add_sub_cancel_left]
        · simp only [Function.update_self]
      · refine h.quiet hpaying.now rfl (Function.update_of_ne hr ..) (Function.update_of_ne hr ..)
          ?_ ?_ ?_
        · simp only [State.due, hpaying.payouts]
        · simp only [hpaying.points]
        · simp only [State.remaining, hpaying.taken]
          exact a.state.remaining_remove_le _ _
  | none =>
      simp only [hpay] at hbook
      subst hbook
      cases i with
      | onInitialize n drained =>
          obtain ⟨⟨paid, s₁⟩, h₁, h₂⟩ := Option.map_eq_some_iff.mp hstate
          replace h₂ : s₁ = s' := h₂
          subst h₂
          simp only [State.payment, h₁, Option.bind_some, Option.map_eq_none_iff] at hpay
          subst hpay
          obtain ⟨snapshot, -, hcases⟩ := State.onInitialize_cases h₁
          cases hcases with
          | idle => exact h.quiet rfl rfl rfl rfl rfl rfl le_rfl
          | closed hdue =>
              exact h.closed ht rfl (Option.isSome_iff_exists.mpr ⟨_, hdue⟩) rfl rfl rfl rfl rfl le_rfl
          | lost hdue =>
              exact h.closed ht rfl (Option.isSome_iff_exists.mpr ⟨_, hdue⟩) rfl rfl rfl rfl rfl
                (a.state.remaining_remove_le _ _)
      | noteAuthor author =>
          obtain rfl := Option.some.inj hstate
          exact h.noted ht author rfl rfl rfl rfl
      | newSession now newIndex validators hasKeys =>
          obtain ⟨⟨out, s₁⟩, h₁, h₂⟩ := Option.map_eq_some_iff.mp hstate
          replace h₂ : s₁ = s' := h₂
          subst h₂
          cases hround : a.state.round.shouldUpdate now with
          | true => exact h.ended (State.newSession_ended hs hround h₁) rfl rfl rfl
          | false =>
              have hturn := State.newSession_turned h₁
              rw [hround] at hturn
              obtain ⟨hrewards, hnow⟩ := hturn
              refine h.quiet hnow rfl rfl rfl ?_ ?_ ?_
              · simp only [State.due, hrewards]
              · simp only [hrewards]
              · simp only [State.remaining, hrewards, le_refl]
      | _ =>
          have haside := State.step_aside hs.ledger rfl hstate
          refine h.quiet haside.now rfl rfl rfl ?_ ?_ ?_
          · simp only [State.due, haside.rewards]
          · simp only [haside.rewards]
          · simp only [State.remaining, haside.rewards, le_refl]

/-- **Run lemma.**  The accounts of every round are kept in every run. -/
lemma Minted.booked (h : Minted cfg rm a) (r : ℕ) : Booked cfg a r := by
  have hall : Minted cfg rm a ∧ ∀ r, Booked cfg a r := by
    refine Reachable.invariant (P := fun a => Minted cfg rm a ∧ ∀ r, Booked cfg a r) ?_ ?_ h
    · rintro a ⟨s, hs, rfl⟩
      obtain ⟨-, -, hawarded, hdue, -⟩ := hs.unpaid
      refine ⟨.init ⟨s, hs, rfl⟩, fun r => ⟨fun _ => ⟨rfl, rfl, ?_⟩, 0, Nat.zero_le _, ?_,
        fun info hi => ?_⟩⟩
      · simp only [Minting.start, State.remaining, hawarded, StorageMap.sum_empty, Nat.zero_le]
      · simp [Minting.start]
      · simp [Minting.start, State.due, hdue] at hi
    · rintro a i a' ⟨hrun, hbooked⟩ - hstep
      have hreach := hrun.reachable
      have hbacked : a.state.Snaps ValidatorSnapshot.Backed :=
        hreach.snaps .default fun l hl => hl.snappable
      exact ⟨.step hrun trivial hstep, fun r =>
        (hbooked r).step hreach.inv hreach.timely hbacked hstep⟩
  exact hall.2 r

/-! ## Results -/

/-- **What a round mints.**  The commission is at most the reward that it is taken from.  The amounts that
a payout assigns exceed the reward by at most one half for each of them, and what is minted for a round
exceeds its issuance by at most one half for each payment made. -/
theorem rewards_bounded {commission basic : Perbill} {issuance pts totalPoints : ℕ}
    {snapshot : ValidatorSnapshot AccountId} (hs : snapshot.Backed) (h : Minted cfg rm a) (r : ℕ) :
    let shares := Shares.of commission ⟨issuance, issuance, basic⟩ pts totalPoints snapshot
    (Perbill.fromRational pts totalPoints).mul (commission.mul issuance) ≤ shares.total ∧
      2 * (shares.validator + (shares.nominators.map Prod.snd).sum) ≤
        2 * shares.total + (snapshot.nominations.length + 1) ∧
      2 * a.minted r ≤ 2 * a.issued r + a.payments r := by
  intro shares
  have hinfo : (⟨issuance, issuance, basic⟩ : DelayedPayout).roundIssuance ≤
      (⟨issuance, issuance, basic⟩ : DelayedPayout).totalStakingReward := le_rfl
  refine ⟨Shares.commission_le hinfo, Shares.sum_amounts_le hinfo hs, ?_⟩
  obtain ⟨parts, hparts, hbound, -⟩ := (h.booked r).parts
  have hissued : parts * a.issued r ≤ 1000000000 * a.issued r := Nat.mul_le_mul_right _ hparts
  omega

end Accounts

/-- Account 2 is paid for round 1 of the small network, and a split between a validator and one
nominator. -/
theorem rewards_bounded_devnet : ∃ a : Minting ℕ Unit, Minted devnet devnetRelays a ∧
    a.payments 1 = 2 ∧ 2 * a.minted 1 ≤ 2 * a.issued 1 + 2 ∧
    let shares := Shares.of (.fromPercent 10) ⟨1001, 1001, .zero⟩ 5 15
      (⟨1000, [⟨12, 400⟩], 1400⟩ : ValidatorSnapshot ℕ)
    2 * (shares.validator + (shares.nominators.map Prod.snd).sum) ≤ 2 * shares.total + 2 := by
  have hrun : ((devnetGenesis.build devnet devnetRelays).bind fun s =>
      runSteps (Minting.step devnet devnetRelays) (.start s)
        [.noteAuthor 2, .newSession 20 2 [] (fun _ => true), .onInitialize 21 (some 2)]).any
          (fun a => decide (a.payments 1 = 2)) = true := by decide
  obtain ⟨a, ha, hpayments⟩ := (Option.any_eq_true _ _).mp hrun
  obtain ⟨s, hs, hsteps⟩ := Option.bind_eq_some_iff.mp ha
  have hminted : Minted devnet devnetRelays a :=
    Reachable.runSteps (.init ⟨s, ⟨devnetGenesis, hs⟩, rfl⟩) hsteps
  have hbacked : (⟨1000, [⟨12, 400⟩], 1400⟩ : ValidatorSnapshot ℕ).Backed := ⟨by decide, by decide⟩
  obtain ⟨-, hsplit, hround⟩ := @rewards_bounded _ _ _ _ _ a (.fromPercent 10) .zero 1001 5 15 _
    hbacked hminted 1
  replace hpayments := of_decide_eq_true hpayments
  rw [hpayments] at hround
  exact ⟨a, hminted, hpayments, hround, hsplit⟩

/-- **A part of nothing.**  A nomination of zero in a snapshot whose total is zero gets as much as the
validator does. -/
theorem rewards_unbounded :
    let snapshot : ValidatorSnapshot ℕ := ⟨0, [⟨1, 0⟩], 0⟩
    let shares := Shares.of .zero ⟨100, 100, .zero⟩ 1 1 snapshot
    snapshot.bond + (snapshot.nominations.map Bond.amount).sum ≤ snapshot.total ∧
      ¬ 2 * (shares.validator + (shares.nominators.map Prod.snd).sum) ≤
        2 * shares.total + (snapshot.nominations.length + 1) := by
  decide

end BifrostNode.Staking
