import BifrostNode.Staking.Safety
import BifrostNode.Staking.Turns

/-!
# Auditing the payouts

What the payouts of a round owe to whom is spread over several storage maps, and part of it is
removed on the way.  An audit runs beside the state and writes down what the state forgets.

* **Entitled**: the accounts that have points in a round when its payout is created, and how many
  entries of the round there are to be drained.
* **Blocks**: those of the current round so far.
* **Payments**: every block that paid an account, with the states before and after it.
* **Recorded**: the snapshots taken at the start of a round, under the stash account, which does not
  change when the controller does.

The audit reads the state and never influences it.
-/

namespace BifrostNode.Staking

open Transition

variable {AccountId R : Type} [LinearOrder AccountId]

/-! ## What an audit looks at -/

namespace State

/-- The payout of a round that is still to be made. -/
def due (s : State AccountId R) (r : ℕ) : Option DelayedPayout := s.rewards.delayedPayouts.get r

/-- The points of an account in a round. -/
def pointsOf (s : State AccountId R) (r : ℕ) (v : AccountId) : ℕ :=
  s.rewards.awardedPts.getD (r, v) 0

/-- The accounts with points in a round. -/
def creditors (s : State AccountId R) (r : ℕ) : Finset AccountId :=
  (s.authors r).filter fun v => s.pointsOf r v ≠ 0

/-- The round that is paid in the current round. -/
def payoutRound (cfg : Config AccountId) (s : State AccountId R) : ℕ :=
  s.now - cfg.rewardPaymentDelay

/-- The snapshot of a selected candidate, under its stash account. -/
def recordedFor (s : State AccountId R) (r : ℕ) (stash : AccountId) :
    Option (ValidatorSnapshot AccountId) :=
  (s.ledger.bondedStash.get stash).bind fun c =>
    if c ∈ s.selection.selectedCandidates then s.rewards.atStake.get (r, c) else none

/-- The payment that a step makes. -/
def payment (cfg : Config AccountId) (s : State AccountId R) :
    Step AccountId R → Option (ℕ × AccountId)
  | .onInitialize n drained => (s.onInitialize cfg n drained).bind fun out =>
      out.1.map fun p => (s.payoutRound cfg, p.1)
  | _ => none

/-- The state in which a step has just taken the snapshots of a new round. -/
def selecting (cfg : Config AccountId) (rm : RelayManager AccountId R) (s : State AccountId R) :
    Step AccountId R → Option (State AccountId R)
  | .newSession now newIndex sessionValidators hasKeys =>
      let s := s.enterSession now newIndex sessionValidators
      if s.round.shouldUpdate now then
        (s.selectForRound cfg rm (s.round.updateRound s.session now)
          ((s.computeTopCandidates cfg).1.filter hasKeys)
          ((s.computeTopCandidates cfg).2.filter hasKeys)).map Prod.snd
      else none
  | _ => none

/-- The authors of a round are the accounts with an entry in it. -/
lemma mem_authors {s : State AccountId R} {r : ℕ} {v : AccountId} :
    v ∈ s.authors r ↔ ∃ pts, s.rewards.awardedPts.get (r, v) = some pts := by
  simp only [authors, Finset.mem_image, Finset.mem_filter, Prod.exists, StorageMap.mem_keys_iff]
  constructor
  · rintro ⟨_, _, ⟨hpts, rfl⟩, rfl⟩
    exact hpts
  · intro hpts
    exact ⟨r, v, ⟨hpts, rfl⟩, rfl⟩

lemma mem_creditors {s : State AccountId R} {r : ℕ} {v : AccountId} :
    v ∈ s.creditors r ↔ s.pointsOf r v ≠ 0 := by
  simp only [creditors, Finset.mem_filter, and_iff_right_iff_imp]
  intro hv
  cases hpts : s.rewards.awardedPts.get (r, v) with
  | none => simp [pointsOf, StorageMap.getD, hpts] at hv
  | some pts => exact mem_authors.mpr ⟨pts, hpts⟩

end State

/-- Whether a step is a block. -/
def Step.isBlock : Step AccountId R → Bool
  | .onInitialize _ _ => true
  | _ => false

/-- A block that paid an account for a round. -/
structure Payment (AccountId R : Type) where
  round : ℕ
  who : AccountId
  before : State AccountId R
  after : State AccountId R

/-- The state with its audit. -/
structure Audit (AccountId R : Type) where
  state : State AccountId R
  entitled : ℕ → Finset AccountId
  queued : ℕ → ℕ
  blocks : ℕ
  payments : List (Payment AccountId R)
  recorded : ℕ → AccountId → Option (ValidatorSnapshot AccountId)

namespace Audit

/-- The audit of a genesis state. -/
def start (s : State AccountId R) : Audit AccountId R :=
  ⟨s, fun _ => ∅, fun _ => 0, 0, [], s.recordedFor⟩

/-- Who has been paid for which rounds. -/
def paid (a : Audit AccountId R) : List (ℕ × AccountId) := a.payments.map fun p => (p.round, p.who)

/-- A step of the state, written down. -/
def step (cfg : Config AccountId) (rm : RelayManager AccountId R) (a : Audit AccountId R)
    (i : Step AccountId R) : Option (Audit AccountId R) :=
  (a.state.step cfg rm i).map fun s =>
    { state := s
      entitled := fun r =>
        if (a.state.due r).isNone ∧ (s.due r).isSome then s.creditors r else a.entitled r
      queued := fun r =>
        if (a.state.due r).isNone ∧ (s.due r).isSome then (s.authors r).card else a.queued r
      blocks := if s.now = a.state.now then a.blocks + (if i.isBlock then 1 else 0) else 0
      payments := (a.state.payment cfg i).toList.map (fun p => ⟨p.1, p.2, a.state, s⟩) ++ a.payments
      recorded :=
        match a.state.selecting cfg rm i with
        | none => a.recorded
        | some s₁ => Function.update a.recorded s.now (s₁.recordedFor s.now) }

end Audit

/-- The audits of runs all of whose steps meet a condition. -/
def AuditedIf (cfg : Config AccountId) (rm : RelayManager AccountId R)
    (cond : Audit AccountId R → Step AccountId R → Prop) (a : Audit AccountId R) : Prop :=
  Reachable (fun a => ∃ s, IsGenesis cfg rm s ∧ a = .start s) (Audit.step cfg rm) cond a

/-- An audit does not change what is reachable. -/
lemma AuditedIf.reachable {cfg : Config AccountId} {rm : RelayManager AccountId R}
    {cond : Audit AccountId R → Step AccountId R → Prop} {a : Audit AccountId R}
    (h : AuditedIf cfg rm cond a) : ReachableIf cfg rm anyStep a.state := by
  refine Reachable.invariant (P := fun a => ReachableIf cfg rm anyStep a.state) ?_ ?_ h
  · rintro a ⟨s, hs, rfl⟩
    exact .init hs
  · intro a i a' ha _ hstep
    obtain ⟨s, hs, rfl⟩ := Option.map_eq_some_iff.mp hstep
    exact .step ha trivial hs

/-! ## Steps that have nothing to do with payouts -/

/-- The account pair that a call bonds. -/
def Call.joining (who : AccountId) : Call AccountId → Option (AccountId × AccountId)
  | .joinCandidates controller _ _ _ => some (who, controller)
  | _ => none

/-- The account pair that a step bonds. -/
def Step.joining : Step AccountId R → Option (AccountId × AccountId)
  | .call (.signed who) c => c.joining who
  | _ => none

/-- The steps that have nothing to do with rewards. -/
def Step.isAside : Step AccountId R → Bool
  | .onInitialize _ _ => false
  | .noteAuthor _ => false
  | .newSession _ _ _ _ => false
  | _ => true

/-- The step touches neither the rewards nor the round, and bonds at most one pair, under a controller
that was free. -/
structure Aside (joined : Option (AccountId × AccountId)) (s s' : State AccountId R) : Prop where
  rewards : s'.rewards = s.rewards
  now : s'.now = s.now
  stashes : ∀ a v, s'.ledger.bondedStash.get a = some v →
    s.ledger.bondedStash.get a = some v ∨
      joined = some (a, v) ∧ s.ledger.candidateInfo.get v = none

section Aside

variable {cfg : Config AccountId} {rm : RelayManager AccountId R} {s s' : State AccountId R}
  {joined : Option (AccountId × AccountId)} {who : AccountId} {origin : Origin AccountId}

omit [LinearOrder AccountId] in
lemma Aside.of_eq (hr : s'.rewards = s.rewards) (hn : s'.now = s.now)
    (hb : s'.ledger.bondedStash = s.ledger.bondedStash) : Aside joined s s' :=
  ⟨hr, hn, fun _ _ h => Or.inl (hb ▸ h)⟩

omit [LinearOrder AccountId] in
lemma Routine.aside (hl : LedgerInv cfg s.ledger) (h : Routine cfg s s') : Aside joined s s' :=
  .of_eq h.rewards h.now (h.stashes hl)

/-- A call touches neither the rewards nor the round, and bonds nobody but the candidate that joins. -/
lemma State.dispatch_aside {call : Call AccountId} (hl : LedgerInv cfg s.ledger)
    (h : s.dispatch cfg rm origin call = .ok s') :
    Aside (Step.joining (.call origin call : Step AccountId R)) s s' := by
  have hsigned := State.signed_of_dispatch h
  cases call with
  | joinCandidates controller relayer bond count =>
      obtain ⟨who, rfl, hcall⟩ := hsigned rfl
      simp only [State.signed, State.joinCandidates, Ledger.join, Ledger.tryInsertPool, bind_eq_ok,
        ensure_eq_ok, pure_eq_ok, exists_const] at hcall
      obtain ⟨-, hfree, -, -, -, -, -, currency, -, relay, -, l, ⟨l₁, ⟨-, rfl⟩, rfl⟩, rfl⟩ := hcall
      refine ⟨rfl, rfl, fun a v hv => ?_⟩
      simp only [StorageMap.get_insert] at hv
      split_ifs at hv with ha
      · obtain rfl := Option.some.inj hv
        exact Or.inr ⟨by rw [ha]; rfl, Option.isNone_iff_eq_none.mp hfree⟩
      · exact Or.inl hv
  | executeLeaveCandidates count =>
      obtain ⟨who, -, hcall⟩ := hsigned rfl
      simp only [State.signed, State.executeLeaveCandidates, bind_eq_ok, ensure_eq_ok, pure_eq_ok,
        exists_const, Prod.exists] at hcall
      obtain ⟨controller, m, -, -, ⟨⟩, -, l, hleave, rfl⟩ := hcall
      obtain ⟨-, hstash, -⟩ := Ledger.executeLeave_frame hleave
      refine ⟨rfl, rfl, fun a v hv => Or.inl ?_⟩
      simp only [hstash, StorageMap.get_remove] at hv
      split_ifs at hv
      exact hv
  | setValidatorTier more new relayer =>
      obtain ⟨who, -, hcall⟩ := hsigned rfl
      obtain ⟨-, -, -, -, -, -, -, -, -, -, hnow, hrewards⟩ := State.setValidatorTier_ok hcall
      exact .of_eq hrewards hnow (State.setValidatorTier_stashes hcall)
  | scheduleLeaveCandidates count =>
      obtain ⟨who, rfl, hcall⟩ := hsigned rfl
      have haside : Returns (Aside none s) (s.scheduleLeaveCandidates cfg who count) :=
        .bind fun _ => .bind fun _ => .bind fun _ => .bind fun _ => .bind fun _ => .bind fun _ =>
          .pure (.of_eq rfl rfl rfl)
      exact haside s' hcall
  | cancelLeaveCandidates count =>
      obtain ⟨who, -, hcall⟩ := hsigned rfl
      simp only [State.signed, State.cancelLeaveCandidates, Ledger.tryInsertPool, bind_eq_ok,
        okOr_eq_ok, ensure_eq_ok, pure_eq_ok, exists_const] at hcall
      obtain ⟨m, -, -, -, l, ⟨-, rfl⟩, rfl⟩ := hcall
      exact .of_eq rfl rfl rfl
  | goOnline =>
      obtain ⟨who, -, hcall⟩ := hsigned rfl
      simp only [State.signed, State.goOnline, Ledger.tryInsertPool, bind_eq_ok, okOr_eq_ok,
        ensure_eq_ok, pure_eq_ok, exists_const] at hcall
      obtain ⟨m, -, -, -, l, ⟨-, rfl⟩, rfl⟩ := hcall
      exact .of_eq rfl rfl rfl
  | goOffline =>
      obtain ⟨who, rfl, hcall⟩ := hsigned rfl
      have haside : Returns (Aside none s) (s.goOffline rm who) :=
        .bind fun _ => .bind fun _ => .bind fun _ => .pure (.of_eq rfl rfl rfl)
      exact haside s' hcall
  | _ => exact (State.dispatch_routine rfl h).aside hl

omit [LinearOrder AccountId] in
lemma Aside.trans {s₁ : State AccountId R} (h₁ : Aside none s s₁) (h₂ : Aside none s₁ s') :
    Aside none s s' where
  rewards := h₂.rewards.trans h₁.rewards
  now := h₂.now.trans h₁.now
  stashes a v h := by
    rcases h₂.stashes a v h with h | ⟨h, -⟩
    · exact h₁.stashes a v h
    · cases h

lemma State.offend_aside {slashSession : ℕ} {details : AccountId × Perbill}
    (h : s.offend cfg rm slashSession details = some s') : Aside none s s' := by
  cases State.offend_cases h with
  | ignored _ => exact .of_eq rfl rfl rfl
  | recorded _ _ _ => exact .of_eq rfl rfl rfl
  | punished _ _ _ => exact .of_eq rfl rfl rfl

/-- **Every step** that has nothing to do with rewards. -/
lemma State.step_aside {i : Step AccountId R} (hl : LedgerInv cfg s.ledger) (hi : i.isAside = true)
    (h : s.step cfg rm i = some s') : Aside i.joining s s' := by
  cases i with
  | call origin call =>
      obtain rfl := Option.some.inj h
      exact commit_induction (P := Aside _ s) (.of_eq rfl rfl rfl) fun _ ht =>
        State.dispatch_aside hl ht
  | onOffence offenders slashSession =>
      exact foldlM_invariant (P := Aside none s)
        (fun _ _ _ ht hstep => ht.trans (State.offend_aside hstep)) h (.of_eq rfl rfl rfl)
  | endSession => exact Option.some.inj h ▸ .of_eq rfl rfl rfl
  | balances free others => exact Option.some.inj h ▸ .of_eq rfl rfl rfl
  | relay state => exact Option.some.inj h ▸ .of_eq rfl rfl rfl
  | offenceSettings isOffenceActive isSlashActive expiration full basic =>
      exact Option.some.inj h ▸ .of_eq rfl rfl rfl
  | onInitialize n drained => cases hi
  | noteAuthor author => cases hi
  | newSession now newIndex validators hasKeys => cases hi

end Aside

end BifrostNode.Staking
