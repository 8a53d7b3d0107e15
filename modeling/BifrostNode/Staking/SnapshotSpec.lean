import BifrostNode.Staking.PayoutSpec

/-!
# Snapshots, audited

Is every payout made from the snapshot that was taken for it?

**Fidelity.**  Points and snapshots are kept under the controller account, and who has been selected
is recorded under the stash account.  A payout finds the recorded snapshot as long as a candidate that
authors has a snapshot of the round, a controller account is not taken over by another stash while it
has points or a snapshot, and no controller changes (`Step.KeepsSnapshots`).
-/

namespace BifrostNode.Staking

open Transition

variable {AccountId R : Type} [LinearOrder AccountId]

/-! ## Who has a snapshot -/

section Selecting

variable {cfg : Config AccountId} {rm : RelayManager AccountId R} {s s' : State AccountId R}

/-- New snapshots are those of the validators in the list. -/
lemma State.countSnapshot_mem {now : ℕ} {k : ℕ × AccountId} :
    ∀ {validators : List AccountId} {acc acc' : (ℕ × ℕ × ℕ) × State AccountId R},
      validators.foldlM (State.countSnapshot now) acc = some acc' →
      (acc'.2.rewards.atStake.get k).isSome →
      k.2 ∈ validators ∨ (acc.2.rewards.atStake.get k).isSome := by
  intro validators
  induction validators with
  | nil =>
      intro acc acc' h hk
      obtain rfl : acc = acc' := by simpa using h
      exact Or.inr hk
  | cons v rest ih =>
      intro acc acc' h hk
      rw [List.foldlM_cons] at h
      obtain ⟨acc₁, h₁, h⟩ := Option.bind_eq_some_iff.mp h
      rcases ih h hk with hmem | hold
      · exact Or.inl (List.mem_cons_of_mem _ hmem)
      simp only [State.countSnapshot, Option.bind_eq_bind, Option.bind_eq_some_iff, Option.pure_def,
        Option.some.injEq] at h₁
      obtain ⟨m, -, top, -, rfl⟩ := h₁
      simp only [State.selectCandidate, State.putCandidate, State.withLedger,
        StorageMap.get_insert] at hold
      split_ifs at hold with hv
      · rw [hv]
        exact Or.inl (List.mem_cons_self ..)
      · exact Or.inr hold

/-- A new snapshot is that of a selected candidate. -/
lemma State.updateTopCandidates_mem {now : ℕ} {full basic : List AccountId} {counts : ℕ × ℕ × ℕ}
    {k : ℕ × AccountId} (h : s.updateTopCandidates rm now full basic = some (counts, s'))
    (hk : (s'.rewards.atStake.get k).isSome) :
    k.2 ∈ s'.selection.selectedCandidates ∨ (s.rewards.atStake.get k).isSome := by
  simp only [State.updateTopCandidates, Option.bind_eq_bind, Option.bind_eq_some_iff,
    Option.pure_def, Option.some.injEq, Prod.exists, Prod.mk.injEq] at h
  obtain ⟨c₁, c₂, c₃, s₁, h₁, d₁, d₂, d₃, s₂, h₂, -, rfl⟩ := h
  have hselected : k.2 ∈ full ∨ k.2 ∈ basic → k.2 ∈ (full ++ basic).toFinset := by simp
  rcases State.countSnapshot_mem h₂ hk with hbasic | hk₁
  · exact Or.inl (hselected (Or.inr hbasic))
  rcases State.countSnapshot_mem h₁ hk₁ with hfull | hk₀
  · exact Or.inl (hselected (Or.inl hfull))
  · exact Or.inr hk₀

/-- **A change of the round without controller changes.**  `s₁` is the state in which the snapshots
have just been taken. -/
structure Selects (s s₁ s' : State AccountId R) : Prop where
  now : s'.now = s.now + 1
  awarded : s'.rewards.awardedPts = s.rewards.awardedPts
  atStake : s'.rewards.atStake = s₁.rewards.atStake
  frame : ∀ r v, r ≠ s.now + 1 → s₁.rewards.atStake.get (r, v) = s.rewards.atStake.get (r, v)
  selected : ∀ k, (s₁.rewards.atStake.get k).isSome →
    k.2 ∈ s₁.selection.selectedCandidates ∨ (s.rewards.atStake.get k).isSome
  stashes : s₁.ledger.bondedStash = s.ledger.bondedStash
  stashes' : s'.ledger.bondedStash = s.ledger.bondedStash

/-- The rest of a round without controller changes touches neither snapshots nor stashes. -/
lemma State.enterRound_frame (cfg : Config AccountId) (rm : RelayManager AccountId R)
    (round : RoundInfo) (count : ℕ)
    (hsets : s.delayedControllerSets.getD (round.currentRoundIndex - 1) [] = []) :
    (s.enterRound rm round count).now = round.currentRoundIndex ∧
      (s.enterRound rm round count).rewards.awardedPts = s.rewards.awardedPts ∧
      (s.enterRound rm round count).rewards.atStake = s.rewards.atStake ∧
      (s.enterRound rm round count).ledger.bondedStash = s.ledger.bondedStash := by
  let s₁ : State AccountId R := (s.startRound rm round count).handleDelayedCommissionSets
    round.currentRoundIndex
  have henter : s.enterRound rm round count =
      { s₁ with
        delayedControllerSets := s.delayedControllerSets.remove (round.currentRoundIndex - 1) } := by
    rw [State.enterRound, State.handleDelayedControllerSets]
    exact congrArg (fun cs => List.foldl _ _ cs) hsets
  have hquiet : Quiet cfg s.ledger s₁.ledger := by
    refine Quiet.foldl_modifyCandidate (fun c m => ?_) _ s.ledger
    exact ⟨rfl, rfl, rfl, rfl, rfl, rfl, rfl, rfl, rfl, fun _ h => Or.inl h, fun hlv => hlv⟩
  rw [henter]
  exact ⟨rfl, rfl, rfl, hquiet.steady.stashes⟩

/-- **`new_session`** at the end of a round takes the snapshots of the next one. -/
lemma State.newSession_selects {now newIndex : ℕ} {validators : List AccountId}
    {hasKeys : AccountId → Bool} {out : Option (List AccountId)}
    (h : s.newSession cfg rm now newIndex validators hasKeys = some (out, s'))
    (hupdate : s.round.shouldUpdate now = true) (hsets : s.controllerSets = []) :
    ∃ s₁, s.selecting cfg rm (.newSession now newIndex validators hasKeys) = some s₁ ∧
      Selects s s₁ s' := by
  simp only [State.newSession, State.tryNewRound, Option.bind_eq_bind, Option.bind_eq_some_iff,
    Option.pure_def, Option.some.injEq, Prod.mk.injEq] at h
  obtain ⟨s₂, h₂, -, rfl⟩ := h
  have hupdate₁ : (s.enterSession now newIndex validators).round.shouldUpdate now = true := hupdate
  rw [if_pos hupdate₁, State.newRound, Option.map_eq_some_iff] at h₂
  obtain ⟨⟨count, s₁⟩, h₁, rfl⟩ := h₂
  obtain ⟨-, hawarded, hstake, hstash, -⟩ := State.selectForRound_rewards h₁
  have hprep := State.selectForRound_prepares h₁
  have hquiet : Quiet cfg s.ledger (s.enterSession now newIndex validators).ledger :=
    s.ledger.computeProductivity_quiet s.selection.productivityPerBlock validators
  have hempty : s₁.delayedControllerSets.getD s.now [] = [] := by
    rw [hprep.sets]
    exact hsets
  obtain ⟨hnow, hpts, hsnap, hbonded⟩ := State.enterRound_frame cfg rm
    ((s.enterSession now newIndex validators).round.updateRound
      (s.enterSession now newIndex validators).session now) count hempty
  refine ⟨s₁, ?_, hnow, hpts.trans hawarded, hsnap, hstake, fun k hk => ?_,
    hstash.trans hquiet.steady.stashes, hbonded.trans (hstash.trans hquiet.steady.stashes)⟩
  · simp only [State.selecting]
    rw [if_pos hupdate₁]
    exact congrArg (Option.map Prod.snd) h₁
  · simp only [State.selectForRound, Option.bind_eq_bind, Option.bind_eq_some_iff,
      Option.pure_def, Option.some.injEq, Prod.exists, Prod.mk.injEq] at h₁
    obtain ⟨_, _, _, s₃, h₃, -, rfl⟩ := h₁
    have hmem := State.updateTopCandidates_mem h₃ hk
    rw [(State.prepareStakingPayouts_frame cfg _ _).2.2.1] at hmem
    exact hmem

/-- **`new_session`** within a round has nothing to do with rewards. -/
lemma State.newSession_aside {now newIndex : ℕ} {validators : List AccountId}
    {hasKeys : AccountId → Bool} {out : Option (List AccountId)}
    (h : s.newSession cfg rm now newIndex validators hasKeys = some (out, s'))
    (hupdate : ¬ s.round.shouldUpdate now = true) :
    Aside none s s' ∧
      s.selecting cfg rm (.newSession now newIndex validators hasKeys) = none := by
  have hupdate₁ : ¬ (s.enterSession now newIndex validators).round.shouldUpdate now = true := hupdate
  simp only [State.newSession, State.tryNewRound, Option.bind_eq_bind, Option.bind_eq_some_iff,
    Option.pure_def, Option.some.injEq, Prod.mk.injEq, if_neg hupdate₁] at h
  obtain ⟨s₁, rfl, -, rfl⟩ := h
  have hquiet : Quiet cfg s.ledger (s.enterSession now newIndex validators).ledger :=
    s.ledger.computeProductivity_quiet s.selection.productivityPerBlock validators
  refine ⟨.of_eq rfl rfl hquiet.steady.stashes, ?_⟩
  simp only [State.selecting, if_neg hupdate₁]

end Selecting

/-! ## Fidelity -/

section Faithful

variable {cfg : Config AccountId} {rm : RelayManager AccountId R} {a a' : Audit AccountId R}

/-- The snapshot of a round under a controller is the one that was recorded for the stash. -/
def Audit.Traced (a : Audit AccountId R) (r : ℕ) (stash v : AccountId) : Prop :=
  (a.state.rewards.atStake.get (r, v)).isSome ∧
    a.recorded r stash = a.state.rewards.atStake.get (r, v)

/-- Who takes over a free controller account with points in a round to be paid, or with a snapshot of
the current round, has them from its own stash. -/
def Audit.Inherits (cfg : Config AccountId) (a : Audit AccountId R) (stash controller : AccountId) :
    Prop :=
  a.state.ledger.candidateInfo.get controller = none →
    ((a.state.rewards.atStake.get (a.state.now, controller)).isSome →
      a.Traced a.state.now stash controller) ∧
    ∀ k ∈ a.state.rewards.awardedPts.keys, k.2 = controller →
      a.state.now ≤ k.1 + cfg.rewardPaymentDelay → a.Traced k.1 stash controller

/-- A candidate that authors has a snapshot of the round, nobody takes over the points or the
snapshot of another stash, and no controller changes.  Not one change can be allowed: when it is
applied, the new controller gets an entry of `AwardedPts` for the round that has ended, were it only of
zero points, and no snapshot of that round to be paid by. -/
def Step.KeepsSnapshots (cfg : Config AccountId) (a : Audit AccountId R) :
    Step AccountId R → Prop
  | .noteAuthor v => (a.state.ledger.candidateInfo.get v).isSome →
      (a.state.rewards.atStake.get (a.state.now, v)).isSome
  | .newSession now _ _ _ =>
      a.state.round.shouldUpdate now = true → a.state.controllerSets = []
  | .call origin c => ∀ p ∈ (Step.call origin c : Step AccountId R).joining, a.Inherits cfg p.1 p.2
  | _ => True

/-- **The snapshots of the rounds to be paid** are those that were recorded. -/
structure SnapshotInv (cfg : Config AccountId) (a : Audit AccountId R) : Prop where
  current : ∀ stash v, a.state.ledger.bondedStash.get stash = some v →
    (a.state.rewards.atStake.get (a.state.now, v)).isSome → a.Traced a.state.now stash v
  awarded : ∀ r stash v, a.state.ledger.bondedStash.get stash = some v →
    (a.state.rewards.awardedPts.get (r, v)).isSome →
    a.state.now ≤ r + cfg.rewardPaymentDelay → a.Traced r stash v

omit [LinearOrder AccountId] in
/-- Fewer snapshots and fewer points, as long as who has points keeps its snapshot. -/
lemma SnapshotInv.of_le (h : SnapshotInv cfg a) (hnow : a'.state.now = a.state.now)
    (hrec : a'.recorded = a.recorded)
    (hstash : a'.state.ledger.bondedStash = a.state.ledger.bondedStash)
    (hstake : ∀ k, (a'.state.rewards.atStake.get k).isSome →
      a'.state.rewards.atStake.get k = a.state.rewards.atStake.get k)
    (hpts : ∀ k, (a'.state.rewards.awardedPts.get k).isSome →
      (a.state.rewards.awardedPts.get k).isSome ∧
        a'.state.rewards.atStake.get k = a.state.rewards.atStake.get k) :
    SnapshotInv cfg a' := by
  refine ⟨fun stash v hv hsome => ?_, fun r stash v hv hsome hr => ?_⟩
  · rw [hstash] at hv
    rw [hnow] at hsome ⊢
    have hsame := hstake _ hsome
    rw [hsame] at hsome
    obtain ⟨h₁, h₂⟩ := h.current stash v hv hsome
    exact ⟨hsame ▸ h₁, by rw [hrec, h₂, hsame]⟩
  · rw [hstash] at hv
    rw [hnow] at hr
    obtain ⟨hold, hsame⟩ := hpts _ hsome
    obtain ⟨h₁, h₂⟩ := h.awarded r stash v hv hold hr
    exact ⟨hsame ▸ h₁, by rw [hrec, h₂, hsame]⟩

omit [LinearOrder AccountId] in
lemma Step.KeepsSnapshots.joining {i : Step AccountId R} {stash v : AccountId}
    (hi : i.KeepsSnapshots cfg a) (hj : i.joining = some (stash, v))
    (hfree : a.state.ledger.candidateInfo.get v = none) :
    ((a.state.rewards.atStake.get (a.state.now, v)).isSome → a.Traced a.state.now stash v) ∧
      ∀ r, (a.state.rewards.awardedPts.get (r, v)).isSome →
        a.state.now ≤ r + cfg.rewardPaymentDelay → a.Traced r stash v := by
  cases i with
  | call origin c =>
      obtain ⟨hcurrent, hawarded⟩ := hi (stash, v) hj hfree
      refine ⟨hcurrent, fun r hr => hawarded (r, v) ?_ rfl⟩
      exact StorageMap.mem_keys_iff.mpr (Option.isSome_iff_exists.mp hr)
  | _ => cases hj

omit [LinearOrder AccountId] in
/-- A step that has nothing to do with rewards. -/
lemma SnapshotInv.of_aside {i : Step AccountId R} (h : SnapshotInv cfg a)
    (hi : i.KeepsSnapshots cfg a) (haside : Aside i.joining a.state a'.state)
    (hrec : a'.recorded = a.recorded) : SnapshotInv cfg a' := by
  have htraced : ∀ {r stash v}, a.Traced r stash v → a'.Traced r stash v := by
    rintro r stash v ⟨h₁, h₂⟩
    rw [Audit.Traced, haside.rewards, hrec]
    exact ⟨h₁, h₂⟩
  refine ⟨fun stash v hv hsome => ?_, fun r stash v hv hsome hr => ?_⟩
  · rw [haside.rewards, haside.now] at hsome
    rw [haside.now]
    rcases haside.stashes stash v hv with hold | ⟨hj, hfree⟩
    · exact htraced (h.current stash v hold hsome)
    · exact htraced ((hi.joining hj hfree).1 hsome)
  · rw [haside.rewards] at hsome
    rw [haside.now] at hr
    rcases haside.stashes stash v hv with hold | ⟨hj, hfree⟩
    · exact htraced (h.awarded r stash v hold hsome hr)
    · exact htraced ((hi.joining hj hfree).2 r hsome hr)

/-- A payout takes the points and the snapshot of the account it pays. -/
lemma SnapshotInv.of_payout {n : ℕ} {snapshot : TotalSnapshot} {drained : Option AccountId}
    {paid : Option (AccountId × ℕ)} (hl : LedgerInv cfg a.state.ledger) (h : SnapshotInv cfg a)
    (hpay : PayoutStep cfg { a.state with
        round := a.state.round.updateBlock n
        rewards := { a.state.rewards with
          totalAtStake := a.state.rewards.totalAtStake.insert a.state.now snapshot } }
        (a.state.payoutRound cfg) drained paid a'.state)
    (hrec : a'.recorded = a.recorded) : SnapshotInv cfg a' := by
  have hnow : a'.state.now = a.state.now := hpay.now
  generalize hs' : a'.state = s' at hpay
  cases hpay with
  | idle =>
      exact h.of_le hnow hrec (by rw [hs']) (fun k _ => by rw [hs']) fun k hk =>
        ⟨by rw [hs'] at hk; exact hk, by rw [hs']⟩
  | closed =>
      exact h.of_le hnow hrec (by rw [hs']; rfl) (fun k _ => by rw [hs']; rfl) fun k hk =>
        ⟨by rw [hs'] at hk; exact hk, by rw [hs']; rfl⟩
  | lost =>
      refine h.of_le hnow hrec (by rw [hs']; rfl) (fun k _ => by rw [hs']; rfl) fun k hk =>
        ⟨?_, by rw [hs']; rfl⟩
      simp only [hs', State.closePayout, State.takeAwarded, StorageMap.get_remove] at hk
      split_ifs at hk
      · cases hk
      · exact hk
  | @paid info w pts total m l hdue hpts hm hpaid =>
      refine h.of_le hnow hrec ?_ (fun k hk => ?_) fun k hk => ?_
      · rw [hs']
        exact ((Ledger.payValidator_preserves hpaid).steady hl).stashes
      · simp only [hs', State.withLedger, State.takeAtStake, State.takeAwarded,
          StorageMap.get_remove] at hk ⊢
        split_ifs at hk ⊢
        · cases hk
        · rfl
      · simp only [hs', State.withLedger, State.takeAtStake, State.takeAwarded,
          StorageMap.get_remove] at hk ⊢
        split_ifs at hk ⊢
        · cases hk
        · exact ⟨hk, rfl⟩

/-- Who authors has a snapshot. -/
lemma SnapshotInv.of_author {author : AccountId} (hl : LedgerInv cfg a.state.ledger)
    (h : SnapshotInv cfg a) (hi : (Step.noteAuthor author : Step AccountId R).KeepsSnapshots cfg a)
    (hs' : a'.state = a.state.noteAuthor author) (hrec : a'.recorded = a.recorded) :
    SnapshotInv cfg a' := by
  have hnow : a'.state.now = a.state.now := by
    rw [hs']
    rfl
  have hquiet : Quiet cfg a.state.ledger a'.state.ledger := by
    rw [hs']
    exact State.noteAuthor_quiet author
  have hstash := hquiet.steady.stashes
  have htraced : ∀ {r stash v}, a.Traced r stash v → a'.Traced r stash v := by
    rintro r stash v ⟨h₁, h₂⟩
    rw [Audit.Traced, hs', hrec]
    exact ⟨h₁, h₂⟩
  refine ⟨fun stash v hv hsome => ?_, fun r stash v hv hsome hr => ?_⟩
  · rw [hstash] at hv
    rw [hnow] at hsome ⊢
    rw [hs'] at hsome
    exact htraced (h.current stash v hv hsome)
  · rw [hstash] at hv
    rw [hnow] at hr
    refine htraced ?_
    by_cases hk : (r, v) = (a.state.now, author)
    · -- the author is a candidate, so it has a snapshot of this round
      obtain ⟨rfl, rfl⟩ := Prod.mk.inj hk
      obtain ⟨m, hm, -⟩ := (hl.books.stash_iff stash v).mp hv
      exact h.current stash v hv (hi (Option.isSome_iff_exists.mpr ⟨m, hm⟩))
    · refine h.awarded r stash v hv ?_ hr
      simp only [hs', State.noteAuthor, StorageMap.get_insert_of_ne _ hk] at hsome
      exact hsome

/-- The first snapshots of a round are recorded. -/
lemma SnapshotInv.of_selects {s₁ : State AccountId R} (ht : Timely cfg a.state)
    (h : SnapshotInv cfg a) (hsel : Selects a.state s₁ a'.state)
    (hrec : a'.recorded = Function.update a.recorded a'.state.now (s₁.recordedFor a'.state.now)) :
    SnapshotInv cfg a' := by
  refine ⟨fun stash v hv hsome => ?_, fun r stash v hv hsome hr => ?_⟩
  · refine ⟨hsome, ?_⟩
    rw [hsel.atStake] at hsome ⊢
    rw [hsel.stashes', ← hsel.stashes] at hv
    rw [hrec, Function.update_self, State.recordedFor, hv, Option.bind_some, if_pos]
    rcases hsel.selected _ hsome with hmem | hold
    · exact hmem
    · rw [ht.atStake _ _ (by rw [hsel.now]; omega)] at hold
      cases hold
  · rw [hsel.stashes'] at hv
    rw [hsel.awarded] at hsome
    -- nobody has points of a later round
    have hle : r ≤ a.state.now := by
      by_contra hlt
      rw [ht.awarded r v (by omega)] at hsome
      cases hsome
    rw [hsel.now] at hr
    obtain ⟨h₁, h₂⟩ := h.awarded r stash v hv hsome (by omega)
    have hsame : a'.state.rewards.atStake.get (r, v) = a.state.rewards.atStake.get (r, v) := by
      rw [hsel.atStake, hsel.frame r v (by omega)]
    refine ⟨hsame ▸ h₁, ?_⟩
    rw [hsame, hrec, Function.update_of_ne (by rw [hsel.now]; omega), h₂]

/-- **Step lemma.**  A step that keeps to the condition keeps the snapshots of the rounds to be paid. -/
lemma SnapshotInv.step {i : Step AccountId R} (hl : LedgerInv cfg a.state.ledger)
    (ht : Timely cfg a.state) (h : SnapshotInv cfg a) (hi : i.KeepsSnapshots cfg a)
    (hstep : a.step cfg rm i = some a') : SnapshotInv cfg a' := by
  obtain ⟨s, hs, rfl⟩ := Option.map_eq_some_iff.mp hstep
  cases i with
  | onInitialize n drained =>
      obtain ⟨⟨paid, s₁⟩, h₁, rfl⟩ := Option.map_eq_some_iff.mp hs
      obtain ⟨snapshot, -, hpay⟩ := State.onInitialize_cases h₁
      exact h.of_payout hl hpay rfl
  | noteAuthor author =>
      obtain rfl := Option.some.inj hs
      exact h.of_author hl hi rfl rfl
  | newSession now newIndex validators hasKeys =>
      obtain ⟨⟨out, s₁⟩, h₁, rfl⟩ := Option.map_eq_some_iff.mp hs
      by_cases hupdate : a.state.round.shouldUpdate now = true
      · obtain ⟨s₂, h₂, hsel⟩ := State.newSession_selects h₁ hupdate (hi hupdate)
        refine h.of_selects ht hsel ?_
        dsimp only
        rw [h₂]
      · obtain ⟨haside, hselect⟩ := State.newSession_aside h₁ hupdate
        refine h.of_aside hi haside ?_
        dsimp only
        rw [hselect]
  | _ => exact h.of_aside hi (State.step_aside hl rfl hs) rfl

end Faithful

instance (a : Audit AccountId R) (r : ℕ) (stash v : AccountId) : Decidable (a.Traced r stash v) :=
  inferInstanceAs (Decidable (_ ∧ _))

instance (cfg : Config AccountId) (a : Audit AccountId R) (stash controller : AccountId) :
    Decidable (a.Inherits cfg stash controller) :=
  inferInstanceAs (Decidable (_ → _ ∧ ∀ k ∈ a.state.rewards.awardedPts.keys, _ → _ → _))

instance (cfg : Config AccountId) (a : Audit AccountId R) (i : Step AccountId R) :
    Decidable (i.KeepsSnapshots cfg a) :=
  match i with
  | .noteAuthor _ => inferInstanceAs (Decidable (_ → _))
  | .newSession _ _ _ _ =>
      inferInstanceAs (Decidable (_ = true → a.state.controllerSets = []))
  | .call origin c => inferInstanceAs
      (Decidable (∀ p ∈ (Step.call origin c : Step AccountId R).joining, a.Inherits cfg p.1 p.2))
  | .onInitialize _ _ | .endSession | .onOffence _ _ | .balances _ _ | .relay _
  | .offenceSettings _ _ _ _ _ => .isTrue trivial

end BifrostNode.Staking
