import BifrostNode.Fees.Transfers

/-!
# The account that collects the fees

Fees in tokens go to an account without a key.  Refunds and tips are paid out of it by the pallet, and
governance withdraws the rest.

**One transaction** pays out at most what it has brought in (`transact_covers`).
**A run.**  So whatever is sent from the account is covered by what it has received, or was withdrawn by
governance (`collector_solvent`).  Users run what they like, but nobody signs for the account.
-/

namespace BifrostNode.Fees

open Cccp Staking Transition Words

/-! ## Accounts -/

/-- What an account has sent of a token. -/
def outgoing (log : List Transfer) (token account : H160) : ℕ :=
  ((log.filter fun t => t.token = token ∧ t.source = account).map Transfer.amount).sum

/-- What an account has received of a token. -/
def incoming (log : List Transfer) (token account : H160) : ℕ :=
  ((log.filter fun t => t.token = token ∧ t.target = account).map Transfer.amount).sum

section Accounts

variable {l l' : List Transfer} {token other source target account : H160} {amount : ℕ}

@[simp] lemma outgoing_append :
    outgoing (l ++ l') token account = outgoing l token account + outgoing l' token account := by
  simp only [outgoing, List.filter_append, List.map_append, List.sum_append]

@[simp] lemma incoming_append :
    incoming (l ++ l') token account = incoming l token account + incoming l' token account := by
  simp only [incoming, List.filter_append, List.map_append, List.sum_append]

/-- An account that sends nothing. -/
lemma outgoing_eq_zero (h : ∀ t ∈ l, t.source ≠ account) : outgoing l token account = 0 := by
  have hnone : l.filter (fun t => decide (t.token = token ∧ t.source = account)) = [] := by
    rw [List.filter_eq_nil_iff]
    intro t ht
    simp [h t ht]
  rw [outgoing, hnone, List.map_nil, List.sum_nil]

/-- Transfers of one token send no more than their amounts together. -/
lemma outgoing_le (token account : H160) (h : ∀ t ∈ l, t.token = other)
    (hsum : (l.map Transfer.amount).sum ≤ amount) :
    outgoing l token account ≤ if token = other then amount else 0 := by
  split_ifs with htoken
  · refine le_trans ?_ hsum
    exact (List.filter_sublist.map Transfer.amount).sum_le_sum fun _ _ => Nat.zero_le _
  · have hnone : l.filter (fun t => decide (t.token = token ∧ t.source = account)) = [] := by
      rw [List.filter_eq_nil_iff]
      intro t ht
      simp [h t ht, Ne.symm htoken]
    rw [outgoing, hnone, List.map_nil, List.sum_nil]

lemma incoming_moved (token other source target : H160) (amount : ℕ) :
    incoming (moved other source target amount) token target = if token = other then amount else 0 := by
  rw [moved]
  split_ifs with hzero htoken htoken
  · rw [hzero]
    rfl
  · rfl
  · simp [incoming, htoken]
  · simp [incoming, Ne.symm htoken]

lemma outgoing_moved (h : source ≠ account) :
    outgoing (moved other source target amount) token account = 0 := by
  refine outgoing_eq_zero fun t ht => ?_
  rw [moved] at ht
  split_ifs at ht
  · cases ht
  · rw [List.mem_singleton] at ht
    exact ht ▸ h

end Accounts

/-! ## Outside -/

section Outside

variable {σ : Type}

/-- The native currency is not one of the tokens. -/
structure Host.NativeApart (host : Host σ) (log : σ → List Transfer) : Prop where
  withdraw : ∀ outer who amount r, host.withdraw outer who amount = some r → log r.1 = log outer
  deposit : ∀ outer who amount r, host.depositIntoExisting outer who amount = some r →
    log r.1 = log outer
  unbalanced : ∀ outer amount, log (host.onUnbalanced outer amount) = log outer

/-- Tokens may have moved, but not out of the account. -/
def Unsigned (log : σ → List Transfer) (account : H160) (outer outer' : σ) : Prop :=
  ∃ added, log outer' = log outer ++ added ∧ ∀ t ∈ added, t.source ≠ account

/-- What is sent is covered by what is received, and by an allowance. -/
def Covers (log : σ → List Transfer) (account : H160) (allowance : H160 → ℕ) (outer outer' : σ) : Prop :=
  ∀ token, outgoing (log outer') token account + incoming (log outer) token account ≤
    outgoing (log outer) token account + incoming (log outer') token account + allowance token

variable {log : σ → List Transfer} {account : H160} {o o₁ o₂ : σ} {allowance : H160 → ℕ}

lemma Covers.of_eq (h : log o₁ = log o) : Covers log account allowance o o₁ := by
  intro token
  rw [h]
  omega

lemma Covers.trans (h₁ : Covers log account (fun _ => 0) o o₁) (h₂ : Covers log account allowance o₁ o₂) :
    Covers log account allowance o o₂ := by
  intro token
  have hfirst := h₁ token
  have hsecond := h₂ token
  simp only [Nat.add_zero] at hfirst
  omega

lemma Unsigned.covers (h : Unsigned log account o o₁) : Covers log account allowance o o₁ := by
  obtain ⟨added, hlog, hsource⟩ := h
  intro token
  rw [hlog, outgoing_append, incoming_append, outgoing_eq_zero hsource]
  omega

end Outside

/-! ## One transaction -/

section Transactions

variable {σ : Type} {host : Host σ} {log : σ → List Transfer} {outer : σ} {s s₁ s' : Chain σ}
  {who token target : H160} {amount fee : ℕ} {info : LiquidityInfo}

namespace Chain

lemma withdrawNativeFee_log (hapart : host.NativeApart log)
    (h : s.withdrawNativeFee host who fee = .ok (s₁, info)) :
    (∃ imbalance, info = .native (some imbalance)) ∧ log s₁.outer = log s.outer := by
  obtain ⟨imbalance, rfl, hwithdraw, -, -⟩ := withdrawNativeFee_ok h
  exact ⟨⟨imbalance, rfl⟩, hapart.withdraw _ _ _ _ hwithdraw⟩

/-- A fee that is taken in the native currency moves no tokens, whatever was tried before. -/
lemma withdrawFee_native {imbalance : Option ℕ} (hexact : host.Exact log)
    (hapart : host.NativeApart log) (h : s.withdrawFee host who fee = .ok (s₁, .native imbalance)) :
    log s₁.outer = log s.outer := by
  have hnative : ∀ {t : Chain σ}, log t.outer = log s.outer →
      t.withdrawNativeFee host who fee = .ok (s₁, .native imbalance) → log s₁.outer = log s.outer :=
    fun ht hw => (withdrawNativeFee_log hapart hw).2.trans ht
  simp only [withdrawFee] at h
  split_ifs at h
  · cases h
  · exact hnative (t := s.countTransaction) rfl h
  · cases htoken : s.countTransaction.fees.userFeeToken.get who with
    | none =>
        rw [htoken] at h
        exact hnative (t := s.countTransaction) rfl h
    | some token =>
        simp only [htoken, withdrawErc20Fee] at h
        split at h
        · exact hnative (t := s.countTransaction) rfl h
        · split_ifs at h
          · exact hnative (t := s.countTransaction) rfl h
          · split at h
            · rename_i amount tokenPrice nativePrice hconverted
              obtain ⟨config, -, -, -, -, hamount⟩ := convert_eq_ok.mp hconverted
              rw [takeTokens] at h
              dsimp only at h
              split_ifs at h with hok
              · cases h
              · refine hnative ?_ h
                have hlog : log (host.transfer s.outer who token host.feeCollectorAddress amount).1 = _ :=
                  log_transfer hexact (tokenAmount_lt hamount)
                refine hlog.trans ?_
                rw [if_neg, List.append_nil]
                exact hok
            · exact hnative (t := s.countTransaction) rfl h
            · cases h

lemma correctNativeFee_log (hapart : host.NativeApart log) (s : Chain σ) (who : H160)
    (correctedFee baseFee : ℕ) (imbalance : Option ℕ) :
    log (s.correctNativeFee host who correctedFee baseFee imbalance).1.outer = log s.outer ∧
      ∀ token tip, (s.correctNativeFee host who correctedFee baseFee imbalance).2 ≠ .erc20Tip token tip := by
  cases imbalance with
  | none => exact ⟨rfl, fun _ _ h => by cases h⟩
  | some paid =>
      refine ⟨?_, fun _ _ h => by cases h⟩
      show log (host.onUnbalanced ((host.depositIntoExisting s.outer who _).getD (s.outer, 0)).1 _) = _
      rw [hapart.unbalanced]
      cases hdeposit : host.depositIntoExisting s.outer who (paid - saturated correctedFee) with
      | none => rfl
      | some r => exact hapart.deposit _ _ _ _ hdeposit

lemma payPriorityFee_log (hapart : host.NativeApart log)
    (h : ∀ token tip, info ≠ .erc20Tip token tip) : log (s.payPriorityFee host info).outer = log s.outer := by
  cases info with
  | none => rfl
  | erc20Withdrawn w => rfl
  | erc20Tip token tip => exact absurd rfl (h token tip)
  | native imbalance =>
      cases imbalance with
      | none => rfl
      | some tip =>
          show log (((host.depositIntoExisting s.outer (host.findAuthor s.outer) tip).map
            Prod.fst).getD s.outer) = _
          cases hdeposit : host.depositIntoExisting s.outer (host.findAuthor s.outer) tip with
          | none => rfl
          | some r => exact hapart.deposit _ _ _ _ hdeposit

/-- **A refund and a tip** come to at most what was withdrawn. -/
lemma correctErc20Fee_sent {w : Withdrawal} {correctedFee : ℕ} (hexact : host.Exact log) (s : Chain σ)
    (who : H160) (baseFee : ℕ) (hamount : w.amount < 2 ^ 256) (hnative : w.nativeEquivalent ≠ 0)
    (hle : correctedFee ≤ w.nativeEquivalent) :
    ∃ sent, log ((s.correctErc20Fee host who correctedFee baseFee w).1.payPriorityFee host
        (s.correctErc20Fee host who correctedFee baseFee w).2).outer = log s.outer ++ sent ∧
      (∀ t ∈ sent, t.token = w.token) ∧ (sent.map Transfer.amount).sum ≤ w.amount := by
  have hused : actualTokenAmount w.amount correctedFee w.nativeEquivalent ≤ w.amount :=
    actualTokenAmount_le hnative hle
  have hrefund : w.amount - actualTokenAmount w.amount correctedFee w.nativeEquivalent < 2 ^ 256 := by
    omega
  have hpart := tipTokenAmount_le (actualTokenAmount w.amount correctedFee w.nativeEquivalent)
    correctedFee baseFee
  rw [correctErc20Fee_eq hnative, payPriorityFee_outer]
  obtain ⟨refunds, hrefunds, hfrom, hsum⟩ :=
    sent_le hexact s.outer host.feeCollectorAddress w.token who hrefund
  obtain ⟨tips, htips, hfrom', hsum'⟩ := sent_le hexact _ _ _ _ (hpart.trans_lt (by omega))
  refine ⟨refunds ++ tips, ?_, ?_, ?_⟩
  · rw [htips, hrefunds, List.append_assoc]
  · intro t ht
    rcases List.mem_append.mp ht with ht | ht
    · exact (hfrom t ht).1
    · exact (hfrom' t ht).1
  · rw [List.map_append, List.sum_append]
    omega

/-- **One transaction**: what it moves out of the collector is covered by what it moves in. -/
lemma transact_covers {execute : σ → σ} {correctedFee baseFee : ℕ} (hexact : host.Exact log)
    (hapart : host.NativeApart log) (hwho : who ≠ host.feeCollectorAddress) (hle : correctedFee ≤ fee)
    (hexecute : ∀ o, Unsigned log host.feeCollectorAddress o (execute o))
    (h : s.transact host who fee execute correctedFee baseFee = .ok s') :
    Covers log host.feeCollectorAddress (fun _ => 0) s.outer s'.outer := by
  simp only [transact, bind_eq_ok, pure_eq_ok, Prod.exists] at h
  obtain ⟨s₁, withdrawn, hwithdraw, rfl⟩ := h
  have hran : Covers log host.feeCollectorAddress (fun _ => 0) s₁.outer (execute s₁.outer) :=
    (hexecute s₁.outer).covers
  rcases withdrawFee_cases hwithdraw with ⟨-, rfl, rfl⟩ | ⟨hfee, w, rfl, hcharge⟩ | ⟨-, i, rfl, -⟩
  · exact hran
  · have hnative : w.nativeEquivalent = fee := hcharge.nativeEquivalent
    have hcorrected : correctedFee ≤ w.nativeEquivalent := hnative ▸ hle
    obtain ⟨sent, hlog, htoken, hsum⟩ := correctErc20Fee_sent hexact
      { s₁ with outer := execute s₁.outer } who baseFee hcharge.amount_lt (hnative ▸ hfee) hcorrected
    obtain ⟨added, hadded, hsource⟩ := hexecute s₁.outer
    intro token
    refine le_trans (Nat.add_le_add_right (congrArg (outgoing · token _) hlog).le _) ?_
    refine le_trans ?_ (Nat.add_le_add_right
      (Nat.add_le_add_left (congrArg (incoming · token _) hlog).ge _) _)
    show outgoing (log (execute s₁.outer) ++ sent) token _ + _ ≤
      _ + incoming (log (execute s₁.outer) ++ sent) token _ + _
    rw [hadded, hcharge.received hexact]
    simp only [outgoing_append, incoming_append, outgoing_eq_zero hsource, outgoing_moved hwho,
      incoming_moved]
    have hcovered := outgoing_le token host.feeCollectorAddress htoken hsum
    omega
  · have hpaid := withdrawFee_native hexact hapart hwithdraw
    refine Covers.trans (.of_eq hpaid) (hran.trans (.of_eq ?_))
    obtain ⟨hcorrected, htip⟩ := correctNativeFee_log hapart { s₁ with outer := execute s₁.outer } who
      correctedFee baseFee (some i)
    exact (payPriorityFee_log hapart htip).trans hcorrected

end Chain

end Transactions

/-! ## Runs -/

section Runs

variable {σ : Type} {host : Host σ} {log : σ → List Transfer} {s s' : Chain σ}

namespace Chain

/-- Nobody signs for the account, and transactions cost at most what was withdrawn for them. -/
def Step.Ordinary (host : Host σ) (log : σ → List Transfer) (s : Chain σ) : Step σ → Prop
  | .transact who fee execute correctedFee _ =>
      who ≠ host.feeCollectorAddress ∧ correctedFee ≤ fee ∧
        ∀ o, Unsigned log host.feeCollectorAddress o (execute o)
  | .outside change => Unsigned log host.feeCollectorAddress s.outer (change s.outer)
  | .withdrawCollectedFees _ _ _ amount => amount < 2 ^ 256
  | _ => True

/-- What governance withdraws of each token. -/
def governed (host : Host σ) (s : Chain σ) : Step σ → H160 → ℕ
  | .withdrawCollectedFees origin token target amount, x =>
      if x = token ∧ (s.withdrawCollectedFees host origin token target amount).toOption.isSome then amount
      else 0
  | _, _ => 0

lemma withdrawCollectedFees_covers {origin : Origin H160} {token target : H160} {amount : ℕ}
    (hexact : host.Exact log) (hamount : amount < 2 ^ 256)
    (h : s.withdrawCollectedFees host origin token target amount = .ok s') :
    Covers log host.feeCollectorAddress (governed host s (.withdrawCollectedFees origin token target amount))
      s.outer s'.outer := by
  have hgoverned : ∀ x, governed host s (.withdrawCollectedFees origin token target amount) x =
      if x = token then amount else 0 := by
    intro x
    simp only [governed, h, Except.toOption, Option.isSome_some, and_true]
  simp only [withdrawCollectedFees, bind_eq_ok, ensure_eq_ok, pure_eq_ok, exists_const] at h
  obtain ⟨-, -, -, hok, rfl⟩ := h
  obtain ⟨sent, hlog, htoken, hsum⟩ :=
    sent_le hexact s.outer host.feeCollectorAddress token target hamount
  intro x
  rw [hgoverned x]
  show outgoing (log (host.transfer s.outer host.feeCollectorAddress token target amount).1) x _ + _ ≤
    _ + incoming (log (host.transfer s.outer host.feeCollectorAddress token target amount).1) x _ + _
  rw [hlog, outgoing_append, incoming_append]
  have hcovered := outgoing_le x host.feeCollectorAddress (fun t ht => (htoken t ht).1) hsum
  omega

/-- **One step**: what it moves out of the collector is covered, up to what governance withdraws. -/
lemma step_covers {i : Step σ} (hexact : host.Exact log) (hapart : host.NativeApart log)
    (hi : i.Ordinary host log s) (h : s.step host i = some s') :
    Covers log host.feeCollectorAddress (governed host s i) s.outer s'.outer := by
  have hstill : s'.outer = s.outer → Covers log host.feeCollectorAddress (governed host s i) s.outer
      s'.outer := fun heq => .of_eq (congrArg log heq)
  cases i with
  | withdrawCollectedFees origin token target amount =>
      obtain rfl := Option.some.inj h
      cases hcall : s.withdrawCollectedFees host origin token target amount with
      | error e => exact .of_eq rfl
      | ok t => exact withdrawCollectedFees_covers hexact hi hcall
  | transact who fee execute correctedFee baseFee =>
      obtain ⟨hwho, hle, hexecute⟩ := hi
      exact transact_covers hexact hapart hwho hle hexecute (toOption_eq_some.mp h)
  | outside change =>
      obtain rfl := Option.some.inj h
      exact Unsigned.covers hi
  | onInitialize => exact hstill (Option.some.inj h ▸ rfl)
  | addFeeToken origin token config => exact hstill (Option.some.inj h ▸ rfl)
  | removeFeeToken origin token => exact hstill (Option.some.inj h ▸ rfl)
  | updateFeeToken origin token config => exact hstill (Option.some.inj h ▸ rfl)
  | setUserFeeToken who token => exact hstill (Option.some.inj h ▸ rfl)
  | setAssetOracle origin asset oracleId => exact hstill (Option.some.inj h ▸ rfl)
  | removeAssetOracle origin asset => exact hstill (Option.some.inj h ▸ rfl)
  | setNativeCurrencyOracle origin chainId oracleId => exact hstill (Option.some.inj h ▸ rfl)
  | removeNativeCurrencyOracle origin chainId => exact hstill (Option.some.inj h ▸ rfl)
  | setOracleManagerContract origin contract => exact hstill (Option.some.inj h ▸ rfl)
  | removeOracleManagerContract origin => exact hstill (Option.some.inj h ▸ rfl)
  | setAssetAggregator origin asset aggregatorContract decimal => exact hstill (Option.some.inj h ▸ rfl)
  | removeAssetAggregator origin asset => exact hstill (Option.some.inj h ▸ rfl)

/-- The watched runs, with what governance has withdrawn. -/
def CollectorWatched (host : Host σ) (log : σ → List Transfer) (x : Chain σ × (H160 → ℕ)) : Prop :=
  Reachable (fun x => log x.1.outer = [] ∧ x.2 = fun _ => 0)
    (watched (step host) fun s i _ total token => total token + governed host s i token)
    (fun x i => i.Ordinary host log x.1) x

end Chain

/-- **The collector is solvent.**  In every run in which nobody else signs for it, what it has sent of a
token is covered by what it has received, or was withdrawn by governance. -/
theorem collector_solvent (hexact : host.Exact log) (hapart : host.NativeApart log)
    {x : Chain σ × (H160 → ℕ)} (h : Chain.CollectorWatched host log x) (token : H160) :
    outgoing (log x.1.outer) token host.feeCollectorAddress ≤
      incoming (log x.1.outer) token host.feeCollectorAddress + x.2 token := by
  refine Reachable.invariant (P := fun x : Chain σ × (H160 → ℕ) =>
    outgoing (log x.1.outer) token host.feeCollectorAddress ≤
      incoming (log x.1.outer) token host.feeCollectorAddress + x.2 token) ?_ ?_ h
  · rintro x ⟨hlog, -⟩
    rw [hlog]
    exact Nat.zero_le _
  · intro x i x' hx hi hstep
    obtain ⟨hs, hnote⟩ := watched_eq_some hstep
    have hcovers := Chain.step_covers hexact hapart hi hs token
    have htotal : x'.2 token = x.2 token + Chain.governed host x.1 i token := congrFun hnote token
    omega

lemma till_apart (q : Quotes) : (till q).NativeApart Till.log where
  withdraw o who amount r h := by
    obtain rfl : (o, amount) = r := Option.some.inj h
    rfl
  deposit o who amount r h := by
    obtain rfl : (o, amount) = r := Option.some.inj h
    rfl
  unbalanced o amount := rfl

/-- A transaction that uses half of its fee, and governance takes what is left. -/
def tillDay : List (Chain.Step Till) :=
  [.transact 5 (10 ^ 18) id (10 ^ 18 / 2) (10 ^ 18 / 4), .withdrawCollectedFees .root 7 3 250000]

/-- The collector has paid out what it took, and governance a part of it. -/
theorem collector_solvent_till : ∃ x : Chain Till × (H160 → ℕ),
    Chain.CollectorWatched (till ⟨10 ^ 18, 10 ^ 18, 1⟩) Till.log x ∧ x.2 7 = 250000 ∧
    incoming x.1.outer.log 7 8 = 1000000 ∧ outgoing x.1.outer.log 7 8 ≤ 1000000 + 250000 := by
  let note : Chain Till → Chain.Step Till → Chain Till → (H160 → ℕ) → H160 → ℕ :=
    fun s i _ total token => total token + Chain.governed (till ⟨10 ^ 18, 10 ^ 18, 1⟩) s i token
  have hrun : (runSteps (watched (Chain.step (till ⟨10 ^ 18, 10 ^ 18, 1⟩)) note)
      (tillChain, fun _ => 0) tillDay).any (fun x =>
        decide (x.2 7 = 250000 ∧ incoming x.1.outer.log 7 8 = 1000000)) = true := by decide +kernel
  obtain ⟨x, hsteps, hP⟩ := (Option.any_eq_true _ _).mp hrun
  obtain ⟨hgoverned, hincoming⟩ := of_decide_eq_true hP
  have hwatched : Chain.CollectorWatched (till ⟨10 ^ 18, 10 ^ 18, 1⟩) Till.log x := by
    refine Reachable.runSteps_of (.init ⟨rfl, rfl⟩) (fun i hi t => ?_) hsteps
    simp only [tillDay, List.mem_cons, List.not_mem_nil, or_false] at hi
    rcases hi with rfl | rfl
    · exact ⟨by decide, by decide, fun o => ⟨[], (List.append_nil _).symm, fun t ht => by cases ht⟩⟩
    · show 250000 < 2 ^ 256
      norm_num
  have hsolvent := collector_solvent (till_exact _) (till_apart _) hwatched 7
  have hcovered : outgoing x.1.outer.log 7 8 ≤ incoming x.1.outer.log 7 8 + x.2 7 := hsolvent
  rw [hincoming, hgoverned] at hcovered
  exact ⟨x, hwatched, hgoverned, hincoming, hcovered⟩

end Runs

end BifrostNode.Fees
